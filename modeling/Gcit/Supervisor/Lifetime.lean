import Gcit.Library.Channel
import Gcit.State.WriterTracks
import Gcit.Supervisor.Daemon

/-! # A daemon from the lock to its end

`run_with_factories` once it has loaded its state: the boot, the select loop, the control
server with its connections, and the shutdown, which waits for the flows, for the control
server and for the writer thread, in this order. Of a flow task only matters that it holds
a sender of the state queue. A reload by signal is a part of the loop.
-/

namespace Gcit.Lifetime

open Gcit Gcit.Library Gcit.Library.Channel Gcit.Writer

def CONTROL_COMMAND_QUEUE : Nat := 8

/-- Where a connection task stands. It is `submitting` while it waits for room among the
commands, and `asking` while it waits for the reply; neither wait looks at the
cancellation. -/
inductive ConnPc where
  | reading
  | submitting
  | asking
  | sending
  | closed
  deriving DecidableEq

inductive MainPc where
  | booting
  | looping
  | handling (conn : Nat)
  | drainingFlows
  | awaitingControl
  | joiningWriter
  | returned
  /-- The boot failed, and what it had started is detached. -/
  | failed
  deriving DecidableEq

structure Process where
  pc : MainPc
  flows : Nat
  /-- The control server accepts connections. -/
  serving : Bool
  conns : List ConnPc
  commands : Mpsc Nat CONTROL_COMMAND_QUEUE
  stateQueue : Mpsc StateUpdate Supervisor.STATE_QUEUE
  writer : MirroredFrame
  /-- What the queue took, from the start. -/
  sent : List StateUpdate
  lastWrite : Option PersistResult

inductive Event where
  | spawnFlow
  | flowEnds
  | send (u : StateUpdate)
  | serve
  | bootFails
  | ready
  | accept
  | request (conn : Nat) (isCommand : Bool)
  | submit (conn : Nat)
  | respond (conn : Nat)
  | hangUp (conn : Nat)
  | stopServing
  | take
  | answer
  | signal
  | flowsJoined
  | controlJoined
  | write (e : Writer.Event)
  | writerJoined

namespace Process

/-- `none` if the mirror is poisoned, which the fresh one is not. -/
def start (disk : Option State) : Option Process :=
  (spawnWithMirror disk ⟨State.default, false⟩).map fun w =>
    ⟨.booting, 0, false, [], .empty _ _, .empty _ _, w, [], none⟩

/-- The supervisor still has its own senders of the state queue. -/
def mainSends (p : Process) : Bool :=
  match p.pc with
  | .booting | .looping | .handling _ | .drainingFlows | .awaitingControl => true
  | .joiningWriter | .returned | .failed => false

/-- No sender of the state queue is left. -/
def Disconnected (p : Process) : Prop := p.mainSends = false ∧ p.flows = 0

instance (p : Process) : Decidable p.Disconnected :=
  inferInstanceAs (Decidable (_ ∧ _))

/-- The root token is cancelled. -/
def stopping (p : Process) : Bool :=
  match p.pc with
  | .drainingFlows | .awaitingControl | .joiningWriter | .returned => true
  | .booting | .looping | .handling _ | .failed => false

def spawns (p : Process) : Bool :=
  match p.pc with
  | .booting | .looping | .handling _ => true
  | _ => false

/-- A receive takes what is at the front of the queue; it ends the loop when the queue is
empty and disconnected. -/
def stepWriter (p : Process) (e : Writer.Event) : Option Process :=
  match e with
  | .receive batch =>
    if batch = (p.stateQueue.takeMany batch.length).1 then
      (runMirrored p.writer e).map fun w =>
        { p with writer := w, stateQueue := (p.stateQueue.takeMany batch.length).2 }
    else none
  | .closed =>
    if p.stateQueue.queue = [] ∧ p.Disconnected then
      (runMirrored p.writer e).map fun w => { p with writer := w }
    else none
  | .persist r => (runMirrored p.writer e).map fun w => { p with writer := w, lastWrite := some r }
  | .apply | .publish => (runMirrored p.writer e).map fun w => { p with writer := w }

def setConn (p : Process) (conn : Nat) (pc : ConnPc) : Process :=
  { p with conns := p.conns.set conn pc }

def step (p : Process) : Event → Option Process
  | .spawnFlow => if p.spawns = true then some { p with flows := p.flows + 1 } else none
  | .flowEnds => if 0 < p.flows then some { p with flows := p.flows - 1 } else none
  | .send u =>
    if p.spawns = true ∨ 0 < p.flows then
      (p.stateQueue.send? u).map fun queue =>
        { p with stateQueue := queue, sent := p.sent ++ [u] }
    else none
  | .serve =>
    if p.pc = .booting ∧ p.serving = false then some { p with serving := true } else none
  | .bootFails => if p.pc = .booting then some { p with pc := .failed } else none
  | .ready => if p.pc = .booting ∧ p.serving = true then some { p with pc := .looping } else none
  | .accept =>
    if p.serving = true then some { p with conns := p.conns ++ [.reading] } else none
  | .request conn isCommand =>
    if p.conns[conn]? = some .reading then
      some (p.setConn conn (if isCommand then .submitting else .sending))
    else none
  | .submit conn =>
    if p.conns[conn]? = some .submitting then
      (p.commands.send? conn).map fun commands =>
        { p.setConn conn .asking with commands := commands }
    else none
  | .respond conn =>
    if p.conns[conn]? = some .sending then some (p.setConn conn .reading) else none
  | .hangUp conn =>
    if p.conns[conn]? = some .reading ∨ p.conns[conn]? = some .sending then
      some (p.setConn conn .closed)
    else none
  | .stopServing =>
    if p.stopping = true ∧ p.serving = true then some { p with serving := false } else none
  | .take =>
    if p.pc = .looping then
      p.commands.recv?.map fun (conn, commands) =>
        { p with pc := .handling conn, commands := commands }
    else none
  | .answer => match p.pc with
    | .handling conn => some { p.setConn conn .sending with pc := .looping }
    | _ => none
  | .signal => if p.pc = .looping then some { p with pc := .drainingFlows } else none
  | .flowsJoined =>
    if p.pc = .drainingFlows ∧ p.flows = 0 then some { p with pc := .awaitingControl } else none
  | .controlJoined =>
    if p.pc = .awaitingControl ∧ p.serving = false ∧ ∀ pc ∈ p.conns, pc = .closed then
      some { p with pc := .joiningWriter }
    else none
  | .write e => p.stepWriter e
  | .writerJoined =>
    if p.pc = .joiningWriter ∧ p.writer.pc = .exited then some { p with pc := .returned } else none

end Process

/-- A step of the writer thread changes nothing but what is its own. -/
theorem stepWriter_frame {p q : Process} {e : Writer.Event} (h : p.stepWriter e = some q) :
    ∃ w queue lastWrite, runMirrored p.writer e = some w ∧
      q = { p with writer := w, stateQueue := queue, lastWrite := lastWrite } := by
  cases e with
  | receive batch =>
    obtain ⟨-, hrun⟩ := Option.ite_none_right_eq_some.mp h
    obtain ⟨w, hw, rfl⟩ := Option.map_eq_some_iff.mp hrun
    exact ⟨w, _, p.lastWrite, hw, rfl⟩
  | closed =>
    obtain ⟨-, hrun⟩ := Option.ite_none_right_eq_some.mp h
    obtain ⟨w, hw, rfl⟩ := Option.map_eq_some_iff.mp hrun
    exact ⟨w, p.stateQueue, p.lastWrite, hw, rfl⟩
  | persist r =>
    obtain ⟨w, hw, rfl⟩ := Option.map_eq_some_iff.mp h
    exact ⟨w, p.stateQueue, some r, hw, rfl⟩
  | apply | publish =>
    obtain ⟨w, hw, rfl⟩ := Option.map_eq_some_iff.mp h
    exact ⟨w, p.stateQueue, p.lastWrite, hw, rfl⟩

/-! ## The state queue and the writer -/

/-- The drain loop is on its way out only after it found the queue closed. -/
def Exiting (pc : Writer.Pc) : Prop := pc = .finalWrite ∨ pc = .finalPublish ∨ pc = .exited

/-- The writer tracks what it received, and what it did not receive yet is in the queue. -/
structure Fed (disk : Option State) (p : Process) (l : Ledger) : Prop where
  tracks : Tracks (Writer.loadOrInit disk) p.writer.erase l ∧
    MirrorTracks (Writer.loadOrInit disk) p.writer l
  sent : l.received ++ p.stateQueue.queue = p.sent
  lastWrite : p.lastWrite = l.lastPersist
  closing : Exiting p.writer.pc → p.Disconnected ∧ p.stateQueue.queue = []
  returned : p.pc = .returned → p.writer.pc = .exited

/-- A step that does not send and is not the writer's leaves both alone, and brings no
sender back. -/
structure Aside (p q : Process) : Prop where
  writer : q.writer = p.writer
  stateQueue : q.stateQueue = p.stateQueue
  sent : q.sent = p.sent
  lastWrite : q.lastWrite = p.lastWrite
  disconnected : p.Disconnected → q.Disconnected
  returned : q.pc = .returned → p.pc = .returned ∨ p.writer.pc = .exited

theorem aside_or_of_step {p q : Process} {e : Event} (h : p.step e = some q) :
    Aside p q ∨
    (∃ u queue, e = .send u ∧ (p.spawns = true ∨ 0 < p.flows) ∧ p.stateQueue.send? u = some queue ∧
      q = { p with stateQueue := queue, sent := p.sent ++ [u] }) ∨
    ∃ we, e = .write we ∧ p.stepWriter we = some q := by
  have hspawns : p.spawns = true → ¬p.Disconnected := by
    intro hs hd
    have hmain := hd.1
    revert hs hmain
    simp only [Process.spawns, Process.mainSends]
    cases p.pc <;> simp
  cases e with
  | spawnFlow =>
    obtain ⟨hs, rfl⟩ := Transition.guard_eq_some.mp h
    exact .inl ⟨rfl, rfl, rfl, rfl, fun hd => absurd hd (hspawns hs), .inl⟩
  | flowEnds =>
    obtain ⟨hpos, rfl⟩ := Transition.guard_eq_some.mp h
    exact .inl ⟨rfl, rfl, rfl, rfl, fun hd => absurd hd.2 (Nat.ne_of_gt hpos), .inl⟩
  | send u =>
    obtain ⟨hsender, hsend⟩ := Option.ite_none_right_eq_some.mp h
    obtain ⟨queue, hqueue, rfl⟩ := Option.map_eq_some_iff.mp hsend
    exact .inr (.inl ⟨u, queue, rfl, hsender, hqueue, rfl⟩)
  | serve =>
    obtain ⟨-, rfl⟩ := Transition.guard_eq_some.mp h
    exact .inl ⟨rfl, rfl, rfl, rfl, id, .inl⟩
  | bootFails =>
    obtain ⟨hpc, rfl⟩ := Transition.guard_eq_some.mp h
    exact .inl ⟨rfl, rfl, rfl, rfl, fun hd => ⟨rfl, hd.2⟩, by simp⟩
  | ready =>
    obtain ⟨⟨hpc, -⟩, rfl⟩ := Transition.guard_eq_some.mp h
    exact .inl ⟨rfl, rfl, rfl, rfl, fun hd => absurd hd (hspawns (by simp [Process.spawns, hpc])),
      by simp⟩
  | accept =>
    obtain ⟨-, rfl⟩ := Transition.guard_eq_some.mp h
    exact .inl ⟨rfl, rfl, rfl, rfl, id, .inl⟩
  | request conn isCommand =>
    obtain ⟨-, rfl⟩ := Transition.guard_eq_some.mp h
    exact .inl ⟨rfl, rfl, rfl, rfl, id, .inl⟩
  | submit conn =>
    obtain ⟨-, hsend⟩ := Option.ite_none_right_eq_some.mp h
    obtain ⟨commands, -, rfl⟩ := Option.map_eq_some_iff.mp hsend
    exact .inl ⟨rfl, rfl, rfl, rfl, id, .inl⟩
  | respond conn =>
    obtain ⟨-, rfl⟩ := Transition.guard_eq_some.mp h
    exact .inl ⟨rfl, rfl, rfl, rfl, id, .inl⟩
  | hangUp conn =>
    obtain ⟨-, rfl⟩ := Transition.guard_eq_some.mp h
    exact .inl ⟨rfl, rfl, rfl, rfl, id, .inl⟩
  | stopServing =>
    obtain ⟨-, rfl⟩ := Transition.guard_eq_some.mp h
    exact .inl ⟨rfl, rfl, rfl, rfl, id, .inl⟩
  | take =>
    obtain ⟨hpc, htake⟩ := Option.ite_none_right_eq_some.mp h
    obtain ⟨⟨conn, commands⟩, -, rfl⟩ := Option.map_eq_some_iff.mp htake
    exact .inl ⟨rfl, rfl, rfl, rfl, fun hd => absurd hd (hspawns (by simp [Process.spawns, hpc])),
      by simp⟩
  | answer =>
    simp only [Process.step] at h
    split at h
    · next conn hpc =>
      cases h
      exact .inl ⟨rfl, rfl, rfl, rfl, fun hd => absurd hd (hspawns (by simp [Process.spawns, hpc])),
      by simp⟩
    · cases h
  | signal =>
    obtain ⟨hpc, rfl⟩ := Transition.guard_eq_some.mp h
    exact .inl ⟨rfl, rfl, rfl, rfl, fun hd => absurd hd (hspawns (by simp [Process.spawns, hpc])),
      by simp⟩
  | flowsJoined =>
    obtain ⟨⟨hpc, -⟩, rfl⟩ := Transition.guard_eq_some.mp h
    refine .inl ⟨rfl, rfl, rfl, rfl, fun hd => ?_, by simp⟩
    have hmain := hd.1
    simp [Process.mainSends, hpc] at hmain
  | controlJoined =>
    obtain ⟨-, rfl⟩ := Transition.guard_eq_some.mp h
    exact .inl ⟨rfl, rfl, rfl, rfl, fun hd => ⟨rfl, hd.2⟩, by simp⟩
  | write we => exact .inr (.inr ⟨we, rfl, h⟩)
  | writerJoined =>
    obtain ⟨⟨-, hexited⟩, rfl⟩ := Transition.guard_eq_some.mp h
    exact .inl ⟨rfl, rfl, rfl, rfl, fun hd => ⟨rfl, hd.2⟩, fun _ => .inr hexited⟩

theorem exiting_of_runMirrored {w v : MirroredFrame} {e : Writer.Event}
    (h : runMirrored w e = some v) (he : e ≠ .closed) (hv : Exiting v.pc) : Exiting w.pc := by
  cases e with
  | receive batch =>
    obtain ⟨-, rfl⟩ := Transition.guard_eq_some.mp h
    simp [Exiting] at hv
  | closed => exact absurd rfl he
  | apply =>
    obtain ⟨hpc, hv'⟩ := Option.ite_none_right_eq_some.mp h
    split at hv'
    · cases hv'
      simp [Exiting, hpc] at hv
    · cases hv'
      simp [Exiting] at hv
  | persist r =>
    simp only [runMirrored] at h
    split at h
    · cases h
      by_cases hr : r = .ok <;> simp [Exiting, hr] at hv
    · next hpc => exact .inl hpc
    · cases h
  | publish =>
    simp only [runMirrored] at h
    split at h
    · cases h
      simp [Exiting] at hv
    · next hpc => exact .inr (.inl hpc)
    · cases h

section

variable {disk : Option State} {p q : Process} {l : Ledger}

theorem fed_start (h : Process.start disk = some p) : Fed disk p {} := by
  obtain ⟨w, hw, rfl⟩ := Option.map_eq_some_iff.mp h
  have hpc : w.pc = .recv := congrArg Frame.pc (spawnWithMirror_eq_some hw).1
  refine ⟨spawnWithMirror_tracks hw, rfl, rfl, fun hexit => ?_, by simp⟩
  simp [Exiting, hpc] at hexit

theorem runMirrored_exited {w : MirroredFrame} (hpc : w.pc = .exited) (e : Writer.Event) :
    runMirrored w e = none := by
  cases e <;> simp [runMirrored, hpc]

theorem Fed.writer {we : Writer.Event} (h : Fed disk p l) (hstep : p.stepWriter we = some q) :
    Fed disk q (l.record we) := by
  have hreturned : p.pc ≠ .returned := by
    intro hpc
    obtain ⟨w, queue, lastWrite, hw, -⟩ := stepWriter_frame hstep
    rw [runMirrored_exited (h.returned hpc)] at hw
    cases hw
  have hpass : ∀ (w : MirroredFrame) lastWrite, we ≠ .closed → runMirrored p.writer we = some w →
      (l.record we).received = l.received → lastWrite = (l.record we).lastPersist →
      Fed disk { p with writer := w, lastWrite := lastWrite } (l.record we) := by
    intro w lastWrite hclosed hw hreceived hlast
    refine ⟨runMirrored_tracks h.tracks hw, ?_, hlast, fun hexit => ?_,
      fun hpc => absurd hpc hreturned⟩
    · rw [hreceived]
      exact h.sent
    · exact h.closing (exiting_of_runMirrored hw hclosed hexit)
  cases we with
  | receive batch =>
    obtain ⟨hbatch, hrun⟩ := Option.ite_none_right_eq_some.mp hstep
    obtain ⟨w, hw, rfl⟩ := Option.map_eq_some_iff.mp hrun
    refine ⟨runMirrored_tracks h.tracks hw, ?_, h.lastWrite, fun hexit => ?_,
      fun hpc => absurd hpc hreturned⟩
    · have hqueue := Mpsc.takeMany_append p.stateQueue batch.length
      rw [← hbatch] at hqueue
      rw [← h.sent, ← hqueue]
      exact List.append_assoc _ _ _
    · have hopen := h.closing (exiting_of_runMirrored hw (by simp) hexit)
      refine ⟨hopen.1, ?_⟩
      simp [Mpsc.takeMany, hopen.2]
  | closed =>
    obtain ⟨hclosed, hrun⟩ := Option.ite_none_right_eq_some.mp hstep
    obtain ⟨w, hw, rfl⟩ := Option.map_eq_some_iff.mp hrun
    exact ⟨runMirrored_tracks h.tracks hw, h.sent, h.lastWrite, fun _ => ⟨hclosed.2, hclosed.1⟩,
      fun hpc => absurd hpc hreturned⟩
  | apply =>
    obtain ⟨w, hw, rfl⟩ := Option.map_eq_some_iff.mp hstep
    exact hpass w p.lastWrite (by simp) hw rfl h.lastWrite
  | persist r =>
    obtain ⟨w, hw, rfl⟩ := Option.map_eq_some_iff.mp hstep
    exact hpass w (some r) (by simp) hw rfl rfl
  | publish =>
    obtain ⟨w, hw, rfl⟩ := Option.map_eq_some_iff.mp hstep
    exact hpass w p.lastWrite (by simp) hw rfl h.lastWrite

theorem Fed.step {e : Event} (h : Fed disk p l) (hstep : p.step e = some q) :
    ∃ l', Fed disk q l' ∧ (l' = l ∨ ∃ we, e = .write we ∧ l' = l.record we) := by
  rcases aside_or_of_step hstep with haside | ⟨u, queue, -, hsender, hqueue, rfl⟩ | ⟨we, he, hwriter⟩
  · refine ⟨l, ⟨?_, ?_, ?_, ?_, ?_⟩, .inl rfl⟩
    · rw [haside.writer]
      exact h.tracks
    · rw [haside.stateQueue, haside.sent]
      exact h.sent
    · rw [haside.lastWrite]
      exact h.lastWrite
    · rw [haside.writer, haside.stateQueue]
      intro hexit
      exact (h.closing hexit).imp_left haside.disconnected
    · rw [haside.writer]
      intro hpc
      exact (haside.returned hpc).elim h.returned id
  · refine ⟨l, ⟨h.tracks, ?_, h.lastWrite, fun hexit => ?_, h.returned⟩, .inl rfl⟩
    · rw [(Mpsc.send?_eq_some hqueue).2.2, ← List.append_assoc, h.sent]
    · obtain ⟨hmain, hflows⟩ := (h.closing hexit).1
      rcases hsender with hspawns | hpos
      · revert hspawns hmain
        simp only [Process.spawns, Process.mainSends]
        cases p.pc <;> simp
      · exact absurd hflows (Nat.ne_of_gt hpos)
  · exact ⟨_, h.writer hwriter, .inr ⟨we, he, rfl⟩⟩

/-- The updates that the file has of this daemon. -/
def persisted (l : Ledger) : List StateUpdate := l.received.take l.onDisk

/-- Only a write that replaces the file changes what it has. -/
theorem Fed.persisted_step {e : Event} (h : Fed disk p l) (hstep : p.step e = some q) :
    ∃ l', Fed disk q l' ∧ ((∀ r, e = .write (.persist r) → r.replaces = false) →
      persisted l' = persisted l) := by
  obtain ⟨l', hfed, rfl | ⟨we, rfl, rfl⟩⟩ := h.step hstep
  · exact ⟨l', hfed, fun _ => rfl⟩
  · refine ⟨_, hfed, fun hreplaces => ?_⟩
    cases we with
    | receive batch => exact List.take_append_of_le_length h.tracks.1.onDisk_le
    | persist r => simp [persisted, Ledger.record, hreplaces r rfl]
    | closed | apply | publish => rfl

theorem Fed.disk_eq (h : Fed disk p l) :
    Writer.loadOrInit p.writer.disk = (Writer.loadOrInit disk).applyAll (persisted l) :=
  h.tracks.1.disk

theorem Fed.persisted_prefix (h : Fed disk p l) : persisted l <+: p.sent := by
  rw [← h.sent]
  exact (List.take_prefix _ _).trans (List.prefix_append _ _)

/-- A daemon that returned and wrote its file last without an error has saved all. -/
theorem Fed.persisted_returned (h : Fed disk p l) (hpc : p.pc = .returned)
    (hlast : p.lastWrite = some .ok) : persisted l = p.sent := by
  have hexited : p.writer.pc = .exited := h.returned hpc
  have hqueue : p.stateQueue.queue = [] := (h.closing (.inr (.inr hexited))).2
  have hconfirmed : l.confirmed = l.received.length := by
    refine h.tracks.1.settled ?_ ?_ (h.lastWrite ▸ hlast) <;> simp [MirroredFrame.erase, hexited]
  have hall : l.onDisk = l.received.length :=
    Nat.le_antisymm h.tracks.1.onDisk_le (hconfirmed ▸ h.tracks.1.confirmed_le)
  rw [← h.sent, hqueue, List.append_nil, persisted, hall, List.take_length]

end

end Gcit.Lifetime
