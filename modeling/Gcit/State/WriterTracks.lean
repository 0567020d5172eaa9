import Gcit.State.Writer

/-! # The drain loops against the ledger

Both drain loops are tracked by the same ledger of events. The mirrored loop is
related to the plain one by forgetting publications, so what holds of the disk
is proved once, for `run`.
-/

namespace Gcit.Writer

open Gcit.Library

theorem Ledger.of_concat (events : List Event) (e : Event) :
    Ledger.of (events ++ [e]) = (Ledger.of events).record e := by
  simp [Ledger.of]

theorem Ledger.stateAt_receive {l : Ledger} (initial : State) {n : Nat} (batch : List StateUpdate)
    (hn : n ≤ l.received.length) :
    (l.record (.receive batch)).stateAt initial n = l.stateAt initial n := by
  simp only [Ledger.record, Ledger.stateAt, List.take_append_of_le_length hn]

theorem Ledger.stateAt_length (l : Ledger) (initial : State) :
    l.stateAt initial l.received.length = initial.applyAll l.received := by
  rw [Ledger.stateAt, List.take_length]

structure Tracks (initial : State) (w : Frame) (l : Ledger) : Prop where
  state : w.state.applyAll w.buffer = initial.applyAll l.received
  buffer : w.pc ≠ .apply → w.buffer = []
  disk : loadOrInit w.disk = l.stateAt initial l.onDisk
  confirmed_le : l.confirmed ≤ l.onDisk
  onDisk_le : l.onDisk ≤ l.received.length
  settled : w.pc ≠ .apply → w.pc ≠ .write → l.lastPersist = some .ok →
    l.confirmed = l.received.length

theorem Tracks.state_eq {initial : State} {w : Frame} {l : Ledger} (h : Tracks initial w l)
    (hpc : w.pc ≠ .apply) : w.state = initial.applyAll l.received := by
  simpa [h.buffer hpc] using h.state

theorem spawn_tracks (disk : Option State) : Tracks (loadOrInit disk) (spawn disk) {} where
  state := rfl
  buffer _ := rfl
  disk := rfl
  confirmed_le := Nat.le_refl _
  onDisk_le := Nat.le_refl _
  settled _ _ h := by cases h

theorem Tracks.persist {initial : State} {w : Frame} {l : Ledger} (h : Tracks initial w l)
    (hpc : w.pc ≠ .apply) (r : PersistResult) (dirty : Bool) (pc : Pc) :
    Tracks initial { w with disk := atomicWriteJson w.disk w.state r, dirty := dirty, pc := pc }
      (l.record (.persist r)) where
  state := h.state
  buffer _ := h.buffer hpc
  disk := by
    cases hr : r.replaces with
    | true => simp [atomicWriteJson, hr, loadOrInit, Ledger.record, Ledger.stateAt, h.state_eq hpc]
    | false => simpa [atomicWriteJson, hr, Ledger.record, Ledger.stateAt] using h.disk
  confirmed_le := by
    have hle := h.confirmed_le
    have hlen := h.onDisk_le
    cases r with
    | ok => simp [Ledger.record, PersistResult.replaces]
    | err replaced => cases replaced <;> simp [Ledger.record, PersistResult.replaces] <;> omega
  onDisk_le := by
    have hlen := h.onDisk_le
    cases hr : r.replaces <;> simp [Ledger.record, hr, hlen]
  settled _ _ hlast := by
    obtain rfl : r = .ok := by simpa [Ledger.record] using hlast
    simp [Ledger.record]

theorem run_tracks {initial : State} {w v : Frame} {l : Ledger} {e : Event}
    (h : Tracks initial w l) (hstep : run w e = some v) : Tracks initial v (l.record e) := by
  cases e with
  | receive batch =>
    obtain ⟨⟨hpc, -, -⟩, rfl⟩ := Transition.guard_eq_some.mp hstep
    have hstate := h.state_eq (by simp [hpc])
    refine ⟨?_, by simp, ?_, h.confirmed_le, ?_, by simp⟩
    · simp [Ledger.record, State.applyAll_append, hstate]
    · exact (l.stateAt_receive initial batch h.onDisk_le).symm ▸ h.disk
    · have hlen := h.onDisk_le
      simp only [Ledger.record, List.length_append]
      omega
  | closed =>
    obtain ⟨hpc, rfl⟩ := Transition.guard_eq_some.mp hstep
    have hlast := h.settled (by simp [hpc]) (by simp [hpc])
    have hbuf := h.buffer (by simp [hpc])
    exact ⟨h.state, fun _ => hbuf, h.disk, h.confirmed_le, h.onDisk_le, fun _ _ => hlast⟩
  | apply =>
    obtain ⟨hpc, hv⟩ := Option.ite_none_right_eq_some.mp hstep
    have hstate := h.state
    split at hv
    · next u rest hbuf =>
      cases hv
      rw [hbuf] at hstate
      exact ⟨hstate, fun hne => absurd hpc hne, h.disk, h.confirmed_le, h.onDisk_le,
        fun hne => absurd hpc hne⟩
    · next hbuf =>
      cases hv
      exact ⟨hstate, fun _ => hbuf, h.disk, h.confirmed_le, h.onDisk_le, fun _ hne => absurd rfl hne⟩
  | persist r =>
    simp only [run] at hstep
    split at hstep
    · next hpc =>
      cases hstep
      exact h.persist (by simp [hpc]) r _ _
    · next hpc =>
      cases hstep
      exact h.persist (by simp [hpc]) r _ _
    · cases hstep
  | publish => cases hstep

/-- The plain frame a mirrored one stands for: a pending publication is no state of its own. -/
def MirroredFrame.erase (w : MirroredFrame) : Frame :=
  { w.toFrame with pc := match w.pc with
    | .publish => .recv
    | .finalPublish => .exited
    | pc => pc }

theorem erase_eq {w : MirroredFrame} (h : w.pc ≠ .publish) (hf : w.pc ≠ .finalPublish) :
    w.erase = w.toFrame := by
  obtain ⟨⟨state, buffer, dirty, pc, disk⟩, mirror⟩ := w
  cases pc with
  | publish => exact absurd rfl h
  | finalPublish => exact absurd rfl hf
  | _ => rfl

theorem erase_step {w v : MirroredFrame} {e : Event} (hstep : runMirrored w e = some v) :
    if e = .publish then v.erase = w.erase else run w.erase e = some v.erase := by
  cases e with
  | receive batch =>
    obtain ⟨⟨hpc, hlen⟩, rfl⟩ := Transition.guard_eq_some.mp hstep
    simp [run, MirroredFrame.erase, hpc, hlen]
  | closed =>
    obtain ⟨hpc, rfl⟩ := Transition.guard_eq_some.mp hstep
    cases hd : w.dirty <;> simp [run, MirroredFrame.erase, hpc, hd]
  | apply =>
    obtain ⟨hpc, hv⟩ := Option.ite_none_right_eq_some.mp hstep
    split at hv
    · next hbuf => cases hv; simp [run, MirroredFrame.erase, hpc, hbuf]
    · next hbuf => cases hv; simp [run, MirroredFrame.erase, hpc, hbuf]
  | persist r =>
    simp only [runMirrored] at hstep
    split at hstep
    · next hpc => cases hstep; by_cases hr : r = .ok <;> simp [run, MirroredFrame.erase, hpc, hr]
    · next hpc => cases hstep; by_cases hr : r = .ok <;> simp [run, MirroredFrame.erase, hpc, hr]
    · cases hstep
  | publish =>
    simp only [runMirrored] at hstep
    split at hstep
    · next hpc => cases hstep; simp [MirroredFrame.erase, hpc]
    · next hpc => cases hstep; simp [MirroredFrame.erase, hpc]
    · cases hstep

/-- The mirror agrees with the ledger and lags the last successful write by at
most the publication that follows it. -/
structure MirrorTracks (initial : State) (w : MirroredFrame) (l : Ledger) : Prop where
  unpoisoned : w.mirror.poisoned = false
  mirror : w.mirror.value = l.stateAt initial l.published
  published_le : l.published ≤ l.confirmed
  synced : w.pc ≠ .publish → w.pc ≠ .finalPublish → l.published = l.confirmed
  pending : w.pc = .publish ∨ w.pc = .finalPublish → l.lastPersist = some .ok

theorem spawnWithMirror_eq_some {disk : Option State} {mirror : Mutex State} {w : MirroredFrame}
    (h : spawnWithMirror disk mirror = some w) :
    w.toFrame = spawn disk ∧ w.mirror = ⟨loadOrInit disk, false⟩ := by
  obtain ⟨hp, ⟨⟩⟩ := Option.ite_none_left_eq_some.mp h
  exact ⟨rfl, by simpa using hp⟩

theorem spawnWithMirror_tracks {disk : Option State} {mirror : Mutex State} {w : MirroredFrame}
    (h : spawnWithMirror disk mirror = some w) :
    Tracks (loadOrInit disk) w.erase {} ∧ MirrorTracks (loadOrInit disk) w {} := by
  obtain ⟨hframe, hmirror⟩ := spawnWithMirror_eq_some h
  have hpc : w.pc = .recv := congrArg Frame.pc hframe
  have herase : w.erase = spawn disk := (erase_eq (by simp [hpc]) (by simp [hpc])).trans hframe
  refine ⟨herase ▸ spawn_tracks disk, ?_⟩
  exact ⟨by rw [hmirror], by rw [hmirror]; rfl, Nat.le_refl _, fun _ _ => rfl, by simp [hpc]⟩

theorem MirrorTracks.publish {initial : State} {w : MirroredFrame} {l : Ledger}
    (ht : Tracks initial w.erase l) (h : MirrorTracks initial w l)
    (hpc : w.pc = .publish ∨ w.pc = .finalPublish) (pc : Pc)
    (hnext : pc ≠ .publish ∧ pc ≠ .finalPublish) :
    MirrorTracks initial { w with mirror := w.mirror.set w.state, pc := pc }
      (l.record .publish) := by
  have hsettled : l.confirmed = l.received.length := by
    refine ht.settled ?_ ?_ (h.pending hpc) <;> obtain hpc | hpc := hpc <;>
      simp [MirroredFrame.erase, hpc]
  have hstate : w.state = initial.applyAll l.received := by
    apply ht.state_eq
    obtain hpc | hpc := hpc <;> simp [MirroredFrame.erase, hpc]
  refine ⟨?_, ?_, Nat.le_refl _, fun _ _ => rfl, fun hp => ?_⟩
  · simp [Mutex.set, h.unpoisoned]
  · simp [Mutex.set, h.unpoisoned, Ledger.record, Ledger.stateAt, hsettled, hstate]
  · exact absurd hp (not_or.mpr hnext)

theorem runMirrored_mirrorTracks {initial : State} {w v : MirroredFrame} {l : Ledger} {e : Event}
    (ht : Tracks initial w.erase l) (h : MirrorTracks initial w l)
    (hstep : runMirrored w e = some v) : MirrorTracks initial v (l.record e) := by
  cases e with
  | receive batch =>
    obtain ⟨⟨hpc, -⟩, rfl⟩ := Transition.guard_eq_some.mp hstep
    have hle : l.published ≤ l.received.length :=
      Nat.le_trans h.published_le (Nat.le_trans ht.confirmed_le ht.onDisk_le)
    refine ⟨h.unpoisoned, ?_, h.published_le, fun _ _ => ?_, by simp⟩
    · exact (l.stateAt_receive initial batch hle).symm ▸ h.mirror
    · exact h.synced (by simp [hpc]) (by simp [hpc])
  | closed =>
    obtain ⟨hpc, rfl⟩ := Transition.guard_eq_some.mp hstep
    have hsync := h.synced (by simp [hpc]) (by simp [hpc])
    refine ⟨h.unpoisoned, h.mirror, h.published_le, fun _ _ => hsync, ?_⟩
    cases w.dirty <;> simp
  | apply =>
    obtain ⟨hpc, hv⟩ := Option.ite_none_right_eq_some.mp hstep
    have hsync := h.synced (by simp [hpc]) (by simp [hpc])
    split at hv <;> cases hv <;>
      exact ⟨h.unpoisoned, h.mirror, h.published_le, fun _ _ => hsync, by simp [hpc]⟩
  | persist r =>
    have hle : l.published ≤ (l.record (.persist r)).confirmed := by
      have hlen := Nat.le_trans h.published_le (Nat.le_trans ht.confirmed_le ht.onDisk_le)
      have hconf := h.published_le
      by_cases hr : r = .ok <;> simp [Ledger.record, hr, hlen, hconf]
    simp only [runMirrored] at hstep
    split at hstep
    all_goals cases hstep
    all_goals
      next hpc =>
      have hsync := h.synced (by simp [hpc]) (by simp [hpc])
      refine ⟨h.unpoisoned, h.mirror, hle, ?_, ?_⟩ <;>
        by_cases hr : r = .ok <;> simp [Ledger.record, hr, hsync]
  | publish =>
    simp only [runMirrored] at hstep
    split at hstep
    · next hpc =>
      cases hstep
      exact h.publish ht (.inl hpc) _ (by simp)
    · next hpc =>
      cases hstep
      exact h.publish ht (.inr hpc) _ (by simp)
    · cases hstep

theorem Tracks.record_publish {initial : State} {w : Frame} {l : Ledger} (h : Tracks initial w l) :
    Tracks initial w (l.record .publish) :=
  ⟨h.state, h.buffer, h.disk, h.confirmed_le, h.onDisk_le, h.settled⟩

theorem runMirrored_tracks {initial : State} {w v : MirroredFrame} {l : Ledger} {e : Event}
    (h : Tracks initial w.erase l ∧ MirrorTracks initial w l) (hstep : runMirrored w e = some v) :
    Tracks initial v.erase (l.record e) ∧ MirrorTracks initial v (l.record e) := by
  refine ⟨?_, runMirrored_mirrorTracks h.1 h.2 hstep⟩
  have herase := erase_step hstep
  split at herase
  · next he =>
    subst he
    exact herase ▸ h.1.record_publish
  · exact run_tracks h.1 herase

end Gcit.Writer
