import Gcit.State.WriterTracks
import Gcit.Supervisor.Daemon

/-! # The stream of state updates

What the tasks and the supervisor send, the bounded queue, and the writer at its
other end. `Traffic` lists every way a step of the daemon can change them; the
updates sent are those the writer received followed by those still queued.
-/

namespace Gcit.Supervisor

open Std Gcit Gcit.Git Gcit.Poll Gcit.Library Gcit.Library.Channel

structure Stream where
  sent : List StateUpdate
  queue : Mpsc StateUpdate STATE_QUEUE
  writer : Writer.MirroredFrame
  ledger : Writer.Ledger
  observed : List Observation

def Daemon.stream (d : Daemon) : Stream := ⟨d.sent, d.stateQueue, d.writer, d.ledger, d.observed⟩

inductive Traffic (d : Daemon) : Event → Stream → Prop where
  | still {e : Event} (he : e ≠ .emit) : Traffic d e d.stream
  | observe {id : Token × FlowRole} {t : Task} {u : StateUpdate}
      {queue : Mpsc StateUpdate STATE_QUEUE} (ht : d.pollTask? id = some t)
      (hflow : u.flow = t.flow) (hu : Daemon.isPollUpdate u = true)
      (hqueue : d.stateQueue.send? u = some queue) :
      Traffic d (.observe id u)
        ⟨d.sent ++ [u], queue, d.writer, d.ledger, d.observed ++ Daemon.observations t u⟩
  | run {u : StateUpdate} {queue : Mpsc StateUpdate STATE_QUEUE}
      (hu : Daemon.isRunUpdate u = true) (hqueue : d.stateQueue.send? u = some queue) :
      Traffic d (.runUpdate u) ⟨d.sent ++ [u], queue, d.writer, d.ledger, d.observed⟩
  | removed {reload : Reload} {name : String} {names : List String}
      {queue : Mpsc StateUpdate STATE_QUEUE} (hpc : d.pc = .emitting reload (name :: names))
      (hqueue : d.stateQueue.send? (.flowRemoved name) = some queue) :
      Traffic d .emit ⟨d.sent ++ [.flowRemoved name], queue, d.writer, d.ledger, d.observed⟩
  | receive {count : Nat} {writer : Writer.MirroredFrame}
      (hwriter : Writer.runMirrored d.writer (.receive (d.stateQueue.takeMany count).1) =
        some writer) :
      Traffic d (.writerReceive count) ⟨d.sent, (d.stateQueue.takeMany count).2, writer,
        d.ledger.record (.receive (d.stateQueue.takeMany count).1), d.observed⟩
  | write {e : Writer.Event} {writer : Writer.MirroredFrame}
      (he : ∀ batch, e ≠ .receive batch) (hwriter : Writer.runMirrored d.writer e = some writer) :
      Traffic d (.writer e) ⟨d.sent, d.stateQueue, writer, d.ledger.record e, d.observed⟩

theorem Traffic.of_stream {d d' : Daemon} {e : Event} (he : e ≠ .emit)
    (h : d'.stream = d.stream) : Traffic d e d'.stream := h ▸ .still he

namespace Daemon

variable {crates : Crates} {d d' : Daemon}

theorem handleFlowExit_stream (joined : Except JoinError FlowExit) :
    (d.handleFlowExit joined).stream = d.stream := by
  unfold handleFlowExit
  generalize d.runtime.handleFlowExit joined = x
  obtain ⟨runtime, panic⟩ := x
  cases panic <;> rfl

theorem spawnFlow_stream (flow : FlowConfig) (setup : Setup) :
    (d.spawnFlow crates flow setup).stream = d.stream := by
  cases setup <;> rfl

theorem handleRespawnRequest_stream (req : RespawnRequest) (setup : Setup) :
    (d.handleRespawnRequest crates req setup).stream = d.stream := by
  unfold handleRespawnRequest
  split
  · rfl
  · dsimp only
    split
    · rfl
    · split
      · rfl
      · split
        · exact spawnFlow_stream (d := d.releaseRespawn req.flow) _ setup
        · rfl

theorem runReload_stream (loaded : Except String Config) :
    (d.runReload crates loaded).stream = d.stream := by
  cases loaded <;> rfl

theorem spawnNewGeneration_stream (reload : Reload) (flow : FlowConfig) (rest : List FlowConfig)
    (setup : Setup) : (d.spawnNewGeneration crates reload flow rest setup).stream = d.stream := by
  unfold spawnNewGeneration
  split
  · rfl
  · exact spawnFlow_stream (d := d.releaseRespawn flow.name) flow setup

theorem send?_stream {u : StateUpdate} (h : d.send? u = some d') :
    ∃ queue, d.stateQueue.send? u = some queue ∧
      d'.stream = ⟨d.sent ++ [u], queue, d.writer, d.ledger, d.observed⟩ := by
  unfold send? at h
  obtain ⟨queue, hqueue, rfl⟩ := Option.map_eq_some_iff.mp h
  exact ⟨queue, hqueue, rfl⟩

theorem step_traffic {e : Event} (h : d.step crates e = some d') : Traffic d e d'.stream := by
  cases e with
  | tick elapsed => cases h; exact .still nofun
  | finish id ending =>
    obtain ⟨r, -, rfl⟩ := Option.map_eq_some_iff.mp h
    exact .still nofun
  | observe id update =>
    obtain ⟨t, ht, h⟩ := Option.bind_eq_some_iff.mp h
    obtain ⟨⟨hflow, hu⟩, h⟩ := Option.ite_none_right_eq_some.mp h
    obtain ⟨m, hm, rfl⟩ := Option.map_eq_some_iff.mp h
    unfold send? at hm
    obtain ⟨queue, hqueue, rfl⟩ := Option.map_eq_some_iff.mp hm
    exact .observe ht hflow hu hqueue
  | runUpdate update =>
    obtain ⟨hu, h⟩ := Option.ite_none_right_eq_some.mp h
    obtain ⟨queue, hqueue, hstream⟩ := send?_stream h
    exact hstream ▸ .run hu hqueue
  | taskError flow entry => cases h; exact .still nofun
  | writerReceive count =>
    obtain ⟨w, hw, rfl⟩ := Option.map_eq_some_iff.mp h
    exact .receive hw
  | writer e =>
    simp only [step, writerStep] at h
    split at h
    · cases h
    · cases h
    · next hreceive _ =>
      obtain ⟨w, hw, rfl⟩ := Option.map_eq_some_iff.mp h
      exact .write hreceive hw
  | watcherFires index =>
    obtain ⟨w, -, h⟩ := Option.bind_eq_some_iff.mp h
    obtain ⟨-, h⟩ := Option.ite_none_right_eq_some.mp h
    obtain ⟨queue, -, rfl⟩ := Option.map_eq_some_iff.mp h
    exact .still nofun
  | joinNext id =>
    simp only [step] at h
    split at h
    · obtain ⟨⟨t, j, r⟩, -, rfl⟩ := Option.map_eq_some_iff.mp h
      exact Traffic.of_stream nofun (handleFlowExit_stream (d := { d with runtime := r }) j)
    · cases h
  | respawn setup =>
    simp only [step] at h
    split at h
    · obtain ⟨⟨req, queue⟩, -, rfl⟩ := Option.map_eq_some_iff.mp h
      exact Traffic.of_stream nofun
        (handleRespawnRequest_stream (d := { d with respawnQueue := queue }) req setup)
    · cases h
  | reload loaded =>
    simp only [step] at h
    split at h
    · cases h
      exact Traffic.of_stream nofun (runReload_stream loaded)
    · cases h
  | drainJoin id =>
    simp only [step] at h
    split at h
    · obtain ⟨-, h⟩ := Option.ite_none_right_eq_some.mp h
      obtain ⟨⟨t, j, r⟩, -, rfl⟩ := Option.map_eq_some_iff.mp h
      exact .still nofun
    · cases h
  | drainDone | drainTimeout =>
    simp only [step] at h
    split at h
    · obtain ⟨-, rfl⟩ := Transition.guard_eq_some.mp h
      exact .still nofun
    · cases h
  | emit =>
    simp only [step] at h
    split at h
    · next hpc =>
      obtain ⟨m, hm, rfl⟩ := Option.map_eq_some_iff.mp h
      obtain ⟨queue, hqueue, hstream⟩ := send?_stream hm
      exact (show m.stream = _ from hstream) ▸ .removed hpc hqueue
    · cases h
  | pushConfig =>
    simp only [step] at h
    split at h
    · cases h; exact .still nofun
    · cases h
  | spawnNext setup =>
    simp only [step] at h
    split at h
    · split at h
      · cases h
        exact Traffic.of_stream nofun (spawnFlow_stream (d := d) _ setup)
      · cases h
        exact .still nofun
    · cases h
      exact Traffic.of_stream nofun (spawnNewGeneration_stream ..)
    · cases h
  | finalize =>
    simp only [step] at h
    split at h
    · cases h; exact .still nofun
    · cases h; exact .still nofun
    · cases h

end Daemon

theorem Traffic.sent_grows {d : Daemon} {e : Event} {s : Stream} (h : Traffic d e s) :
    d.sent <+: s.sent := by
  cases h with
  | still | receive | write => exact List.prefix_refl _
  | observe | run | removed => exact List.prefix_append _ _

/-- Nothing is lost between the senders and the writer, and the writer keeps
the fold of what it received. -/
structure Delivers (initial : State) (s : Stream) : Prop where
  sent : s.sent = s.ledger.received ++ s.queue.queue
  tracks : Writer.Tracks initial s.writer.erase s.ledger
  mirror : Writer.MirrorTracks initial s.writer s.ledger

namespace Delivers

variable {initial : State} {d : Daemon} {s : Stream}

theorem boot (config : Config) (disk : Option State) (now : DateTime)
    (observed : List Observation) :
    Delivers (Writer.loadOrInit disk) (Supervisor.boot config disk now observed).stream := by
  obtain ⟨htracks, hmirror⟩ := Writer.spawnWithMirror_tracks
    (show Writer.spawnWithMirror disk ⟨State.default, false⟩ = some _ from rfl)
  exact ⟨rfl, htracks, hmirror⟩

theorem enqueue (h : Delivers initial d.stream) {u : StateUpdate}
    {queue : Mpsc StateUpdate STATE_QUEUE} (hqueue : d.stateQueue.send? u = some queue)
    (observed : List Observation) :
    Delivers initial ⟨d.sent ++ [u], queue, d.writer, d.ledger, observed⟩ := by
  refine ⟨?_, h.tracks, h.mirror⟩
  have hsent : d.sent = d.ledger.received ++ d.stateQueue.queue := h.sent
  change d.sent ++ [u] = d.ledger.received ++ queue.queue
  rw [(Mpsc.send?_eq_some hqueue).2.2, hsent, List.append_assoc]

theorem traffic {e : Event} (h : Delivers initial d.stream) (ht : Traffic d e s) :
    Delivers initial s := by
  cases ht with
  | still => exact h
  | observe _ _ _ hqueue | run _ hqueue | removed _ hqueue => exact h.enqueue hqueue _
  | @receive count writer hwriter =>
    obtain ⟨htracks, hmirror⟩ := Writer.runMirrored_tracks ⟨h.tracks, h.mirror⟩ hwriter
    refine ⟨?_, htracks, hmirror⟩
    have hsent : d.sent = d.ledger.received ++ d.stateQueue.queue := h.sent
    have htake := d.stateQueue.takeMany_append count
    simp only [Writer.Ledger.record, List.append_assoc, htake]
    exact hsent
  | @write event writer hreceive hwriter =>
    obtain ⟨htracks, hmirror⟩ := Writer.runMirrored_tracks ⟨h.tracks, h.mirror⟩ hwriter
    refine ⟨?_, htracks, hmirror⟩
    have hsame : (d.ledger.record event).received = d.ledger.received := by
      cases event with
      | receive batch => exact absurd rfl (hreceive batch)
      | _ => rfl
    exact hsame ▸ h.sent

theorem run (crates : Crates) {config : Config} {disk : Option State} {now : DateTime}
    {observed : List Observation} {events : List Event}
    (hrun : Transition.run (Daemon.step crates) (Supervisor.boot config disk now observed) events =
      some d) : Delivers (Writer.loadOrInit disk) d.stream :=
  Transition.invariant_run (I := fun d => Delivers (Writer.loadOrInit disk) d.stream)
    (fun _ _ _ h hstep => h.traffic (Daemon.step_traffic hstep)) (boot config disk now observed) hrun

end Delivers

end Gcit.Supervisor
