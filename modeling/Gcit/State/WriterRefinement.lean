import Gcit.State.WriterTracks
import Mathlib.Data.List.Induction

/-! # The writer refines the sequential fold

The on-disk state is at every moment the sequential state after some prefix of
the updates. The plain and the mirrored loop have the same runs up to
publications.
-/

namespace Gcit.Writer

open Gcit.Library

theorem Ledger.record_grows {l : Ledger} (h : l.onDisk ≤ l.received.length) (e : Event) :
    l.received <+: (l.record e).received ∧ l.onDisk ≤ (l.record e).onDisk ∧
      (l.record e).onDisk ≤ (l.record e).received.length := by
  cases e with
  | receive batch =>
    refine ⟨List.prefix_append _ _, Nat.le_refl _, ?_⟩
    simp only [Ledger.record, List.length_append]
    omega
  | persist r => cases hr : r.replaces <;> simp [Ledger.record, hr, h]
  | _ => exact ⟨List.prefix_refl _, Nat.le_refl _, h⟩

theorem Ledger.of_append_grows (earlier later : List Event) :
    (Ledger.of earlier).received <+: (Ledger.of (earlier ++ later)).received ∧
      (Ledger.of earlier).onDisk ≤ (Ledger.of (earlier ++ later)).onDisk ∧
      (Ledger.of (earlier ++ later)).onDisk ≤ (Ledger.of (earlier ++ later)).received.length := by
  have hle : ∀ events : List Event, (Ledger.of events).onDisk ≤ (Ledger.of events).received.length := by
    intro events
    induction events using List.reverseRecOn with
    | nil => exact Nat.le_refl _
    | append_singleton events e ih => exact Ledger.of_concat events e ▸ (Ledger.record_grows ih e).2.2
  induction later using List.reverseRecOn with
  | nil => simpa using hle earlier
  | append_singleton later e ih =>
    obtain ⟨hpre, hdisk, -⟩ := Ledger.record_grows (hle (earlier ++ later)) e
    rw [← Ledger.of_concat, List.append_assoc] at hpre hdisk
    exact ⟨ih.1.trans hpre, Nat.le_trans ih.2.1 hdisk, hle _⟩

/-- The frame after `events` is the sequential fold of what was received, and its
disk the fold of a prefix that only grows. -/
structure RefinesFold (initial : State) (events : List Event) (w : Frame) : Prop where
  state : w.pc ≠ .apply → w.state = initial.applyAll (Ledger.of events).received
  disk : loadOrInit w.disk = (Ledger.of events).stateAt initial (Ledger.of events).onDisk
  advances : ∀ earlier later, events = earlier ++ later →
    (Ledger.of earlier).received <+: (Ledger.of events).received ∧
    (Ledger.of earlier).onDisk ≤ (Ledger.of events).onDisk ∧
    (Ledger.of events).onDisk ≤ (Ledger.of events).received.length
  flushed : w.pc = .exited → (Ledger.of events).lastPersist = some .ok →
    loadOrInit w.disk = initial.applyAll (Ledger.of events).received

theorem Tracks.refinesFold {initial : State} {events : List Event} {w : Frame}
    (h : Tracks initial w (Ledger.of events)) : RefinesFold initial events w where
  state hpc := h.state_eq hpc
  disk := h.disk
  advances earlier later he := he ▸ Ledger.of_append_grows earlier later
  flushed hpc hlast := by
    have hconf := h.settled (by simp [hpc]) (by simp [hpc]) hlast
    have hdisk : (Ledger.of events).onDisk = (Ledger.of events).received.length :=
      Nat.le_antisymm h.onDisk_le (hconf ▸ h.confirmed_le)
    rw [h.disk, hdisk, Ledger.stateAt_length]

theorem refinesFold_of_erase {initial : State} {events : List Event} {w : MirroredFrame}
    (h : RefinesFold initial events w.erase) : RefinesFold initial events w.toFrame where
  state hpc := h.state (by
    simp only [MirroredFrame.erase]
    split
    · simp
    · simp
    · exact hpc)
  disk := h.disk
  advances := h.advances
  flushed hpc := h.flushed (by simp [MirroredFrame.erase, hpc])

def withoutPublish (events : List Event) : List Event := events.filter (· ≠ .publish)

theorem run_erase {v w : MirroredFrame} {events : List Event}
    (h : Transition.run runMirrored v events = some w) :
    Transition.run run v.erase (withoutPublish events) = some w.erase := by
  induction events generalizing v with
  | nil =>
    obtain rfl : v = w := by simpa using h
    rfl
  | cons e events ih =>
    obtain ⟨m, hm, hrest⟩ := Transition.run_cons_eq_some.mp h
    have herase := erase_step hm
    by_cases he : e = .publish
    · rw [if_pos he] at herase
      simpa [withoutPublish, he, herase] using ih hrest
    · rw [if_neg he] at herase
      rw [withoutPublish, List.filter_cons_of_pos (by simpa using he)]
      exact Transition.run_cons_eq_some.mpr ⟨m.erase, herase, ih hrest⟩

def publishing : Event → List Event
  | .persist .ok => [.persist .ok, .publish]
  | e => [e]

/-- Apart from publications and the writes that lead to them, the two loops have one body. -/
theorem runMirrored_eq_map (w : MirroredFrame) {e : Event} (hok : e ≠ .persist .ok)
    (hpub : e ≠ .publish) :
    runMirrored w e = (run w.toFrame e).map fun v => { v with mirror := w.mirror } := by
  cases e with
  | receive batch => simp only [runMirrored, run]; split <;> rfl
  | closed => simp only [runMirrored, run]; split <;> rfl
  | apply =>
    simp only [runMirrored, run]
    split
    · cases w.buffer <;> rfl
    · rfl
  | persist r =>
    have hr : r ≠ .ok := fun h => hok (h ▸ rfl)
    simp only [runMirrored, run, hr, if_false]
    split <;> rfl
  | publish => exact absurd rfl hpub

theorem run_publishing {w : MirroredFrame} {v : Frame} {e : Event}
    (h : run w.toFrame e = some v) :
    ∃ x, Transition.run runMirrored w (publishing e) = some x ∧ x.toFrame = v := by
  rcases eq_or_ne e (.persist .ok) with rfl | hok
  · simp only [run] at h
    split at h
    · next hpc =>
      cases h
      exact ⟨_, by simp [publishing, Transition.run, runMirrored, hpc]; rfl, rfl⟩
    · next hpc =>
      cases h
      exact ⟨_, by simp [publishing, Transition.run, runMirrored, hpc]; rfl, rfl⟩
    · cases h
  · have hpub : e ≠ .publish := by
      rintro rfl
      cases h
    have hevents : publishing e = [e] := by
      unfold publishing
      split
      · exact absurd rfl hok
      · rfl
    refine ⟨{ v with mirror := w.mirror }, ?_, rfl⟩
    simp [hevents, Transition.run, runMirrored_eq_map w hok hpub, h]

theorem withoutPublish_publishing {w v : Frame} {e : Event} (h : run w e = some v) :
    withoutPublish (publishing e) = [e] := by
  unfold publishing
  split
  · rfl
  · cases e with
    | publish => cases h
    | _ => rfl

theorem run_mirrored_exists {w : MirroredFrame} {v : Frame} {events : List Event}
    (h : Transition.run run w.toFrame events = some v) :
    ∃ mevents x, withoutPublish mevents = events ∧
      Transition.run runMirrored w mevents = some x ∧ x.toFrame = v := by
  induction events generalizing w with
  | nil =>
    obtain rfl : w.toFrame = v := by simpa using h
    exact ⟨[], w, rfl, rfl, rfl⟩
  | cons e events ih =>
    obtain ⟨m, hm, hrest⟩ := Transition.run_cons_eq_some.mp h
    obtain ⟨y, hy, rfl⟩ := run_publishing hm
    obtain ⟨mevents, x, hevents, hx, hv⟩ := ih hrest
    refine ⟨publishing e ++ mevents, x, ?_, Transition.run_append_eq_some.mpr ⟨y, hy, hx⟩, hv⟩
    have hhead := withoutPublish_publishing hm
    simp only [withoutPublish, List.filter_append] at hhead hevents ⊢
    rw [hhead, hevents]
    rfl

def rounds (batches : List (List StateUpdate × PersistResult)) : List Event :=
  batches.flatMap fun b => .receive b.1 :: List.replicate b.1.length .apply ++ [.apply, .persist b.2]

theorem run_apply_buffer {w : Frame} (hpc : w.pc = .apply) :
    Transition.run run w (List.replicate w.buffer.length .apply) =
      some { w with state := w.state.applyAll w.buffer, buffer := [] } := by
  obtain ⟨state, buffer, dirty, pc, disk⟩ := w
  obtain rfl : pc = .apply := hpc
  induction buffer generalizing state with
  | nil => rfl
  | cons u rest ih => exact ih (state.apply u)

theorem run_round {w : Frame} (hpc : w.pc = .recv) (batch : List StateUpdate) (r : PersistResult)
    (hsize : 0 < batch.length ∧ batch.length ≤ BATCH_LIMIT) :
    ∃ v, Transition.run run w
      (.receive batch :: List.replicate batch.length .apply ++ [.apply, .persist r]) = some v ∧
      v.pc = .recv := by
  have hrecv : run w (.receive batch) = some { w with buffer := batch, pc := .apply } := by
    simp [run, hpc, hsize]
  have happly := run_apply_buffer (w := { w with buffer := batch, pc := .apply }) rfl
  refine ⟨⟨w.state.applyAll batch, [], if r = .ok then false else true, .recv,
    atomicWriteJson w.disk (w.state.applyAll batch) r⟩, ?_, rfl⟩
  rw [List.cons_append, Transition.run_cons_eq_some]
  exact ⟨_, hrecv, Transition.run_append_eq_some.mpr ⟨_, happly, rfl⟩⟩

theorem run_rounds {w : Frame} (hpc : w.pc = .recv)
    (batches : List (List StateUpdate × PersistResult))
    (hsize : ∀ b ∈ batches, 0 < b.1.length ∧ b.1.length ≤ BATCH_LIMIT) :
    ∃ v, Transition.run run w (rounds batches) = some v ∧ v.pc = .recv := by
  induction batches generalizing w with
  | nil => exact ⟨w, rfl, hpc⟩
  | cons b batches ih =>
    obtain ⟨hb, hbs⟩ := List.forall_mem_cons.mp hsize
    obtain ⟨m, hm, hmpc⟩ := run_round hpc b.1 b.2 hb
    obtain ⟨v, hv, hvpc⟩ := ih hmpc hbs
    refine ⟨v, ?_, hvpc⟩
    rw [rounds, List.flatMap_cons, Transition.run_append_eq_some]
    exact ⟨m, hm, hv⟩

theorem foldl_record_apply (l : Ledger) (n : Nat) :
    (List.replicate n Event.apply).foldl Ledger.record l = l := by
  induction n with
  | zero => rfl
  | succ n ih => exact ih

theorem received_rounds (batches : List (List StateUpdate × PersistResult)) :
    (Ledger.of (rounds batches)).received = batches.flatMap Prod.fst := by
  induction batches using List.reverseRecOn with
  | nil => rfl
  | append_singleton batches b ih =>
    rw [Ledger.of, rounds, List.flatMap_append, List.foldl_append, List.flatMap_append, ← ih]
    simp [rounds, Ledger.of, Ledger.record, foldl_record_apply]

theorem run_closed {w : Frame} (hpc : w.pc = .recv) (fin : PersistResult) :
    ∃ v closing, (closing = [] ∨ closing = [.persist fin]) ∧
      Transition.run run w (.closed :: closing) = some v ∧ v.pc = .exited := by
  cases hd : w.dirty with
  | false => exact ⟨{ w with pc := .exited }, [], .inl rfl, by simp [Transition.run, run, hpc, hd]⟩
  | true =>
    exact ⟨{ w with disk := atomicWriteJson w.disk w.state fin, pc := .exited }, [.persist fin],
      .inr rfl, by simp [Transition.run, run, hpc, hd]⟩

/-- From any file and any unpoisoned mirror, whatever batches the receives
return and however the writes end: both loops hold the sequential fold of what
they received, the file holds the fold of a prefix that only grows, the mirror
follows the successful writes and never overtakes the file, the two loops leave
the same files, and a loop whose last write succeeded leaves the whole fold.
Every choice of batches and outcomes is a run that exits. -/
theorem writer_refines_fold (disk : Option State) (mirror : Mutex State) (w₀ : MirroredFrame)
    (hspawn : spawnWithMirror disk mirror = some w₀) :
    (∀ events w, Transition.run run (spawn disk) events = some w →
      RefinesFold (loadOrInit disk) events w) ∧
    (∀ events w, Transition.run runMirrored w₀ events = some w →
      RefinesFold (loadOrInit disk) events w.toFrame ∧
      (w.pc = .recv ∨ w.pc = .exited → w.mirror.value =
        (Ledger.of events).stateAt (loadOrInit disk) (Ledger.of events).confirmed) ∧
      w.mirror.value = (Ledger.of events).stateAt (loadOrInit disk) (Ledger.of events).published ∧
      (Ledger.of events).published ≤ (Ledger.of events).onDisk) ∧
    (∀ events w, Transition.run runMirrored w₀ events = some w →
      ∃ v, Transition.run run (spawn disk) (withoutPublish events) = some v ∧ v.disk = w.disk) ∧
    (∀ events v, Transition.run run (spawn disk) events = some v →
      ∃ mevents w, withoutPublish mevents = events ∧
        Transition.run runMirrored w₀ mevents = some w ∧ w.disk = v.disk) ∧
    (∀ batches fin, (∀ b ∈ batches, 0 < b.1.length ∧ b.1.length ≤ BATCH_LIMIT) →
      (Ledger.of (rounds batches)).received = batches.flatMap Prod.fst ∧
      ∃ v closing, (closing = [] ∨ closing = [.persist fin]) ∧
        Transition.run run (spawn disk) (rounds batches ++ .closed :: closing) = some v ∧
        v.pc = .exited) := by
  obtain ⟨hframe, -⟩ := spawnWithMirror_eq_some hspawn
  have hpc : w₀.pc = .recv := congrArg Frame.pc hframe
  have herase : w₀.erase = spawn disk := (erase_eq (by simp [hpc]) (by simp [hpc])).trans hframe
  refine ⟨?_, ?_, ?_, ?_, ?_⟩
  · intro events w hrun
    have htracks := Transition.simulation_run (R := Tracks (loadOrInit disk)) (g := Ledger.record)
      (fun _ _ _ _ h hs => run_tracks h hs) (spawn_tracks disk) hrun
    exact htracks.refinesFold
  · intro events w hrun
    obtain ⟨htracks, hmirror⟩ := Transition.simulation_run
      (R := fun w l => Tracks (loadOrInit disk) w.erase l ∧ MirrorTracks (loadOrInit disk) w l)
      (fun _ _ _ _ h hs => runMirrored_tracks h hs) (spawnWithMirror_tracks hspawn) hrun
    refine ⟨?_, ?_, hmirror.mirror, Nat.le_trans hmirror.published_le htracks.confirmed_le⟩
    · exact refinesFold_of_erase htracks.refinesFold
    · intro hend
      have hsync := hmirror.synced (by obtain h | h := hend <;> simp [h])
        (by obtain h | h := hend <;> simp [h])
      exact hsync ▸ hmirror.mirror
  · intro events w hrun
    exact ⟨w.erase, herase ▸ run_erase hrun, rfl⟩
  · intro events v hrun
    obtain ⟨mevents, w, hevents, hw, rfl⟩ := run_mirrored_exists (w := w₀) (by rwa [hframe])
    exact ⟨mevents, w, hevents, hw, rfl⟩
  · intro batches fin hsize
    obtain ⟨m, hm, hmpc⟩ := run_rounds (w := spawn disk) rfl batches hsize
    obtain ⟨v, closing, hclosing, hv, hexit⟩ := run_closed hmpc fin
    exact ⟨received_rounds batches, v, closing, hclosing,
      Transition.run_append_eq_some.mpr ⟨m, hm, hv⟩, hexit⟩

/-- A write that fails before the rename and one that fails after it, from a
missing file: the mirror stays at the default state while the file moves on. -/
theorem writer_refines_fold_failing_writes :
    ∃ w₀ w, spawnWithMirror none ⟨State.default, false⟩ = some w₀ ∧
      Transition.run runMirrored w₀ [.receive [.pollTimestamp "f" 1], .apply, .apply,
        .persist (.err false), .receive [.pollTimestamp "f" 2], .apply, .apply,
        .persist (.err true)] = some w ∧
      w.mirror.value = State.default ∧
      loadOrInit w.disk = State.default.applyAll [.pollTimestamp "f" 1, .pollTimestamp "f" 2] := by
  have h := (writer_refines_fold none ⟨State.default, false⟩ _ rfl).2.1
    [.receive [.pollTimestamp "f" 1], .apply, .apply, .persist (.err false),
      .receive [.pollTimestamp "f" 2], .apply, .apply, .persist (.err true)] _ rfl
  exact ⟨_, _, rfl, rfl, h.2.1 (.inl rfl), h.1.disk⟩

end Gcit.Writer
