import Gcit.Library.Trace
import Gcit.Supervisor.Lifetime

/-! # Daemons one after the other

Any number of daemons are started over the same runtime and state directories. Each
tries the instance lock once, loads the state file behind it and writes the file until
`run` returns; the lock is dropped with the return. A boot that fails leaves its writer
thread behind, until the process is gone.
-/

namespace Gcit.Lifetime

open Gcit Gcit.Library Gcit.Writer

inductive Instance where
  | locking
  | locked
  | running (p : Process)
  | gone (last : Option Process)

structure System where
  disk : Option State
  holder : Option Nat
  instances : Nat → Option Instance
  /-- Who loaded the state file, in this order. -/
  loads : List Nat

inductive SystemEvent where
  | launch (i : Nat)
  | lock (i : Nat)
  /-- The lock is held, or cannot be taken. -/
  | refused (i : Nat)
  | load (i : Nat)
  | loadFails (i : Nat)
  | step (i : Nat) (e : Event)
  | exit (i : Nat)
  | crash (i : Nat)

def Instance.process? : Instance → Option Process
  | .locking | .locked => none
  | .running p => some p
  | .gone last => last

/-- `run` has returned. -/
def Process.done (p : Process) : Bool :=
  match p.pc with
  | .returned | .failed => true
  | _ => false

def Event.replaces : Event → Bool
  | .write (.persist r) => r.replaces
  | _ => false

namespace System

def initial (disk : Option State) : System := ⟨disk, none, fun _ => none, []⟩

def put (s : System) (i : Nat) (x : Instance) : Nat → Option Instance :=
  Function.update s.instances i (some x)

def released (s : System) (i : Nat) : Option Nat :=
  if s.holder = some i then none else s.holder

def process? (s : System) (i : Nat) : Option Process := (s.instances i).bind Instance.process?

def step (s : System) : SystemEvent → Option System
  | .launch i => match s.instances i with
    | none => some { s with instances := s.put i .locking }
    | some _ => none
  | .lock i => match s.instances i with
    | some .locking =>
      if s.holder = none then some { s with holder := some i, instances := s.put i .locked }
      else none
    | _ => none
  | .refused i => match s.instances i with
    | some .locking => some { s with instances := s.put i (.gone none) }
    | _ => none
  | .load i => match s.instances i with
    | some .locked => (Process.start s.disk).map fun p =>
      { s with instances := s.put i (.running p), loads := s.loads ++ [i] }
    | _ => none
  | .loadFails i => match s.instances i with
    | some .locked => some { s with holder := s.released i, instances := s.put i (.gone none) }
    | _ => none
  | .step i e => match s.instances i with
    | some (.running p) => (p.step e).map fun q =>
      { s with
        disk := if e.replaces then q.writer.disk else s.disk
        holder := if q.done then s.released i else s.holder
        instances := s.put i (.running q) }
    | _ => none
  | .exit i => match s.instances i with
    | some (.running p) =>
      if p.done then some { s with instances := s.put i (.gone (some p)) } else none
    | _ => none
  | .crash i => match s.instances i with
    | some x => some { s with
      holder := s.released i, instances := s.put i (.gone x.process?) }
    | none => none

/-- Past the lock, and `run` has not returned. -/
def Active (s : System) (i : Nat) : Prop :=
  match s.instances i with
  | some .locked => True
  | some (.running p) => p.done = false
  | _ => False

end System

/-- The daemon whose boot fails leaves its lock to the next one and its writer running. -/
def SystemEvent.BootHolds : SystemEvent → Prop
  | .step _ .bootFails => False
  | _ => True

/-- The file is replaced by the daemon that loaded it last. -/
def WritesCurrent (s : System) : SystemEvent → Prop
  | .step i e => e.replaces = true → s.loads.getLast? = some i
  | _ => True

section

variable {disk : Option State} {s t : System} {i j : Nat}

@[simp] theorem put_apply {x : Instance} :
    s.put i x j = if j = i then some x else s.instances j := by
  simp [System.put, Function.update_apply]

theorem released_of_ne (h : s.holder = some j) (hne : j ≠ i) : s.released i = some j := by
  rw [System.released, if_neg, h]
  rw [h]
  exact fun heq => hne (Option.some.inj heq)

/-- The supervisor moves on only until it has returned, and fails only in its boot. -/
theorem pc_of_step {p q : Process} {e : Event} (h : p.step e = some q) :
    q.pc = p.pc ∨ p.done = false ∧ (q.pc = .failed → e = .bootFails) := by
  cases e with
  | spawnFlow | flowEnds | accept | respond | hangUp | stopServing | request | serve =>
    obtain ⟨-, rfl⟩ := Transition.guard_eq_some.mp h
    exact .inl rfl
  | bootFails =>
    obtain ⟨hpc, rfl⟩ := Transition.guard_eq_some.mp h
    exact .inr ⟨by simp [Process.done, hpc], fun _ => rfl⟩
  | ready | flowsJoined | controlJoined | writerJoined =>
    obtain ⟨⟨hpc, -⟩, rfl⟩ := Transition.guard_eq_some.mp h
    exact .inr ⟨by simp [Process.done, hpc], by simp⟩
  | signal =>
    obtain ⟨hpc, rfl⟩ := Transition.guard_eq_some.mp h
    exact .inr ⟨by simp [Process.done, hpc], by simp⟩
  | send =>
    obtain ⟨-, hsend⟩ := Option.ite_none_right_eq_some.mp h
    obtain ⟨queue, -, rfl⟩ := Option.map_eq_some_iff.mp hsend
    exact .inl rfl
  | submit =>
    obtain ⟨-, hsend⟩ := Option.ite_none_right_eq_some.mp h
    obtain ⟨commands, -, rfl⟩ := Option.map_eq_some_iff.mp hsend
    exact .inl rfl
  | take =>
    obtain ⟨hpc, htake⟩ := Option.ite_none_right_eq_some.mp h
    obtain ⟨⟨conn, commands⟩, -, rfl⟩ := Option.map_eq_some_iff.mp htake
    exact .inr ⟨by simp [Process.done, hpc], by simp⟩
  | answer =>
    simp only [Process.step] at h
    split at h
    · next hpc =>
      cases h
      exact .inr ⟨by simp [Process.done, hpc], by simp⟩
    · cases h
  | write we =>
    obtain ⟨w, queue, lastWrite, -, rfl⟩ := stepWriter_frame h
    exact .inl rfl

theorem not_done_of_step {p q : Process} {e : Event} (h : p.step e = some q)
    (hdone : q.done = false) : p.done = false := by
  rcases pc_of_step h with hpc | ⟨hp, -⟩
  · rw [← hdone, Process.done, Process.done, hpc]
  · exact hp

theorem mem_active : s.Active i ↔ s.instances i = some .locked ∨
    ∃ p, s.instances i = some (.running p) ∧ p.done = false := by
  unfold System.Active
  split <;> simp_all

theorem active_put {x : Instance} {disk : Option State} {holder : Option Nat} {loads : List Nat} :
    (⟨disk, holder, s.put i x, loads⟩ : System).Active j ↔
      (j = i ∧ (x = .locked ∨ ∃ p, x = .running p ∧ p.done = false)) ∨ (j ≠ i ∧ s.Active j) := by
  rcases eq_or_ne j i with rfl | hne
  · simp [mem_active]
  · simp [mem_active, hne]

theorem process?_put {x : Instance} {disk : Option State} {holder : Option Nat}
    {loads : List Nat} : (⟨disk, holder, s.put i x, loads⟩ : System).process? j =
      if j = i then x.process? else s.process? j := by
  rcases eq_or_ne j i with rfl | hne
  · simp [System.process?]
  · simp [System.process?, hne]

theorem process?_of {x : Instance} (h : s.instances i = some x) : s.process? i = x.process? := by
  simp [System.process?, h]

theorem process?_put_same {x : Instance} {disk : Option State} {holder : Option Nat}
    {loads : List Nat} (h : x.process? = s.process? i) (j : Nat) :
    (⟨disk, holder, s.put i x, loads⟩ : System).process? j = s.process? j := by
  rw [process?_put]
  split
  · next hj => rw [hj, h]
  · rfl

/-- An event moves one instance. Unless that loads the state or is a step of its daemon, it
leaves the file alone, and takes the lock from nobody else. -/
theorem step_cases {e : SystemEvent} (hstep : s.step e = some t) :
    (∃ i x holder, t = { s with holder := holder, instances := s.put i x } ∧
      x.process? = s.process? i ∧ (∀ p, x ≠ .running p) ∧ (x = .locked → holder = some i) ∧
      ∀ j, j ≠ i → s.holder = some j → holder = some j) ∨
    (∃ i p, s.instances i = some .locked ∧ Process.start s.disk = some p ∧
      t = { s with instances := s.put i (.running p), loads := s.loads ++ [i] }) ∨
    ∃ i ev p q, e = .step i ev ∧ s.instances i = some (.running p) ∧ p.step ev = some q ∧
      t = { s with
        disk := if ev.replaces then q.writer.disk else s.disk
        holder := if q.done then s.released i else s.holder
        instances := s.put i (.running q) } := by
  cases e with
  | launch i =>
    simp only [System.step] at hstep
    split at hstep
    · next hnone =>
      cases hstep
      refine .inl ⟨i, .locking, s.holder, rfl, ?_, by simp, by simp, fun _ _ h => h⟩
      simp [System.process?, hnone, Instance.process?]
    · cases hstep
  | lock i =>
    simp only [System.step] at hstep
    split at hstep
    · next hlocking =>
      obtain ⟨hfree, rfl⟩ := Transition.guard_eq_some.mp hstep
      refine .inl ⟨i, .locked, some i, rfl, (process?_of hlocking).symm, by simp, fun _ => rfl, ?_⟩
      simp [hfree]
    · cases hstep
  | refused i =>
    simp only [System.step] at hstep
    split at hstep
    · next hlocking =>
      cases hstep
      exact .inl ⟨i, .gone none, s.holder, rfl, (process?_of hlocking).symm, by simp, by simp,
        fun _ _ h => h⟩
    · cases hstep
  | load i =>
    simp only [System.step] at hstep
    split at hstep
    · next hlocked =>
      obtain ⟨p, hp, rfl⟩ := Option.map_eq_some_iff.mp hstep
      exact .inr (.inl ⟨i, p, hlocked, hp, rfl⟩)
    · cases hstep
  | loadFails i =>
    simp only [System.step] at hstep
    split at hstep
    · next hlocked =>
      cases hstep
      exact .inl ⟨i, .gone none, s.released i, rfl, (process?_of hlocked).symm, by simp, by simp,
        fun _ hne h => released_of_ne h hne⟩
    · cases hstep
  | step i ev =>
    simp only [System.step] at hstep
    split at hstep
    · next p hrunning =>
      obtain ⟨q, hq, rfl⟩ := Option.map_eq_some_iff.mp hstep
      exact .inr (.inr ⟨i, ev, p, q, rfl, hrunning, hq, rfl⟩)
    · cases hstep
  | exit i =>
    simp only [System.step] at hstep
    split at hstep
    · next p hrunning =>
      obtain ⟨-, rfl⟩ := Transition.guard_eq_some.mp hstep
      exact .inl ⟨i, .gone (some p), s.holder, rfl, (process?_of hrunning).symm, by simp, by simp,
        fun _ _ h => h⟩
    · cases hstep
  | crash i =>
    simp only [System.step] at hstep
    split at hstep
    · next x hx =>
      cases hstep
      exact .inl ⟨i, .gone x.process?, s.released i, rfl, (process?_of hx).symm, by simp, by simp,
        fun _ hne h => released_of_ne h hne⟩
    · cases hstep

/-- Every daemon past the lock holds it. -/
def Guarded (s : System) : Prop := ∀ i, s.Active i → s.holder = some i

theorem guarded_step {e : SystemEvent} (h : Guarded s) (hstep : s.step e = some t) :
    Guarded t := by
  intro j hj
  rcases step_cases hstep with ⟨i, x, holder, rfl, -, hrunning, hlocked, hother⟩ |
    ⟨i, p, hi, -, rfl⟩ | ⟨i, ev, p, q, -, hi, hq, rfl⟩
  · rcases active_put.mp hj with ⟨rfl, rfl | ⟨p, rfl, -⟩⟩ | ⟨hne, hactive⟩
    · exact hlocked rfl
    · exact absurd rfl (hrunning p)
    · exact hother j hne (h j hactive)
  · rcases active_put.mp hj with ⟨rfl, -⟩ | ⟨-, hactive⟩
    · exact h j (mem_active.mpr (.inl hi))
    · exact h j hactive
  · rcases active_put.mp hj with ⟨rfl, hx⟩ | ⟨hne, hactive⟩
    · obtain hdone : q.done = false := by simpa using hx
      simpa [hdone] using h j (mem_active.mpr (.inr ⟨p, hi, not_done_of_step hq hdone⟩))
    · show (if q.done then s.released i else s.holder) = some j
      split
      · exact released_of_ne (h j hactive) hne
      · exact h j hactive

/-! ## What the file has of each daemon -/

/-- The file is what the daemons saved, one after the other, and each of them started from
what the ones before it had saved. -/
structure Serial (base : State) (s : System) (part : Nat → List StateUpdate) : Prop where
  nodup : s.loads.Nodup
  loaded : ∀ i ∈ s.loads, (s.process? i).isSome
  disk : Writer.loadOrInit s.disk = base.applyAll (s.loads.flatMap part)
  each : ∀ pre i post, s.loads = pre ++ i :: post → ∃ p d l, s.process? i = some p ∧
    Writer.loadOrInit d = base.applyAll (pre.flatMap part) ∧ Fed d p l ∧ part i = persisted l

theorem flatMap_update {part : Nat → List StateUpdate} {us : List StateUpdate} {ids : List Nat}
    (h : i ∉ ids) : ids.flatMap (Function.update part i us) = ids.flatMap part := by
  refine List.flatMap_congr fun j hj => Function.update_of_ne ?_ _ _
  rintro rfl
  exact h hj

theorem Serial.load {base : State} {part : Nat → List StateUpdate} {p : Process}
    (h : Serial base s part) (hi : s.process? i = none) (hp : Process.start s.disk = some p) :
    Serial base { s with instances := s.put i (.running p), loads := s.loads ++ [i] }
      (Function.update part i []) := by
  have hfresh : i ∉ s.loads := fun hmem => by simpa [hi] using h.loaded i hmem
  constructor
  case nodup => simpa [List.nodup_append] using ⟨h.nodup, fun j hj heq => hfresh (heq ▸ hj)⟩
  case loaded =>
    intro j hj
    rw [process?_put]
    split
    · rfl
    · next hne =>
      refine h.loaded j ?_
      simpa [hne] using hj
  case disk =>
    rw [List.flatMap_append, flatMap_update hfresh]
    simpa using h.disk
  case each =>
    intro pre j post heq
    rcases Trace.concat_eq_append_cons heq with ⟨rfl, rfl⟩ | ⟨post', hsplit⟩
    · refine ⟨p, s.disk, {}, by simp [process?_put, Instance.process?], ?_, fed_start hp,
        by simp [persisted]⟩
      rw [flatMap_update hfresh]
      exact h.disk
    · obtain ⟨q, d, l, hq, hd, hfed, hpart⟩ := h.each pre j post' hsplit
      have hne : j ≠ i := by
        rintro rfl
        exact hfresh (by simp [hsplit])
      refine ⟨q, d, l, by rw [process?_put, if_neg hne, hq], ?_, hfed, ?_⟩
      · rw [flatMap_update fun hmem => hfresh (by simp [hsplit, hmem])]
        exact hd
      · rw [Function.update_of_ne hne]
        exact hpart

theorem Serial.step {base : State} {part : Nat → List StateUpdate} {e : SystemEvent}
    (h : Serial base s part) (hcurrent : WritesCurrent s e) (hstep : s.step e = some t) :
    ∃ part', Serial base t part' := by
  rcases step_cases hstep with ⟨i, x, holder, rfl, hx, -⟩ | ⟨i, p, hi, hp, rfl⟩ |
    ⟨i, ev, p, q, rfl, hi, hq, rfl⟩
  · refine ⟨part, h.nodup, fun j hj => ?_, h.disk, fun pre j post heq => ?_⟩
    · rw [process?_put_same hx]
      exact h.loaded j hj
    · rw [process?_put_same hx]
      exact h.each pre j post heq
  · exact ⟨_, h.load (process?_of hi) hp⟩
  have hp : s.process? i = some p := process?_of hi
  have hloaded : ∀ j ∈ s.loads, (if j = i then some q else s.process? j).isSome := by
    intro j hj
    split
    · rfl
    · exact h.loaded j hj
  -- What `i` saved is the only part that changes, and only with a write that replaces the
  -- file, before which `i` loaded it last.
  cases hreplaces : ev.replaces with
  | false =>
    have hkeep : ∀ r, ev = .write (.persist r) → r.replaces = false := by
      rintro r rfl
      exact hreplaces
    refine ⟨part, h.nodup, fun j hj => process?_put ▸ hloaded j hj, h.disk, ?_⟩
    intro pre j post heq
    obtain ⟨p', d, l, hp', hd, hfed, hpart⟩ := h.each pre j post heq
    rcases eq_or_ne j i with rfl | hne
    · obtain rfl := Option.some.inj (hp.symm.trans hp')
      obtain ⟨l', hfed', hsame⟩ := hfed.persisted_step hq
      exact ⟨q, d, l', by simp [process?_put, Instance.process?], hd, hfed',
        hpart.trans (hsame hkeep).symm⟩
    · exact ⟨p', d, l, by rw [process?_put, if_neg hne, hp'], hd, hfed, hpart⟩
  | true =>
    obtain ⟨pre, hpre⟩ : ∃ pre, s.loads = pre ++ [i] := List.getLast?_eq_some_iff.mp
      (hcurrent hreplaces)
    have hfresh : i ∉ pre := by
      have hnodup := h.nodup
      rw [hpre] at hnodup
      exact fun hmem => (List.nodup_append.mp hnodup).2.2 i hmem i (by simp) rfl
    obtain ⟨p', d, l, hp', hd, hfed, -⟩ := h.each pre i [] hpre
    obtain rfl := Option.some.inj (hp.symm.trans hp')
    obtain ⟨l', hfed', -⟩ := hfed.persisted_step hq
    refine ⟨Function.update part i (persisted l'), h.nodup,
      fun j hj => process?_put ▸ hloaded j hj, ?_, ?_⟩
    · have hsaved : (pre ++ [i]).flatMap (Function.update part i (persisted l')) =
          pre.flatMap part ++ persisted l' := by
        rw [List.flatMap_append, flatMap_update hfresh]
        simp
      show Writer.loadOrInit q.writer.disk = base.applyAll (s.loads.flatMap _)
      rw [hpre, hsaved, State.applyAll_append, ← hd]
      exact hfed'.disk_eq
    · intro pre' j post heq
      rcases Trace.concat_eq_append_cons (hpre.symm.trans heq) with ⟨rfl, rfl⟩ | ⟨post', hsplit⟩
      · refine ⟨q, d, l', by simp [process?_put, Instance.process?], ?_, hfed',
          Function.update_self ..⟩
        rw [flatMap_update hfresh]
        exact hd
      · obtain ⟨p', d', l'', hp', hd', hfed'', hpart⟩ := h.each pre' j post heq
        have hne : j ≠ i := by
          rintro rfl
          exact hfresh (by simp [hsplit])
        refine ⟨p', d', l'', by rw [process?_put, if_neg hne, hp'], ?_, hfed'', ?_⟩
        · rw [flatMap_update fun hmem => hfresh (by simp [hsplit, hmem])]
          exact hd'
        · rw [Function.update_of_ne hne]
          exact hpart

/-! ## Where no boot fails -/

/-- A daemon that has not returned loaded the state last, and one that has is through with
its writer. -/
structure Booted (s : System) : Prop where
  guarded : Guarded s
  last : ∀ i p, s.instances i = some (.running p) → p.done = false → s.loads.getLast? = some i
  pc : ∀ i p, s.process? i = some p → p.pc ≠ .failed
  fed : ∀ i p, s.process? i = some p → ∃ d l, Fed d p l

theorem booted_initial : Booted (.initial disk) := by
  refine ⟨fun i hi => ?_, ?_, ?_, ?_⟩
  · simp [mem_active, System.initial] at hi
  all_goals simp [System.initial, System.process?]

theorem booted_step {e : SystemEvent} (h : Booted s) (he : e.BootHolds)
    (hstep : s.step e = some t) : Booted t := by
  have hguarded : Guarded t := guarded_step h.guarded hstep
  rcases step_cases hstep with ⟨i, x, holder, rfl, hx, hrunning, -⟩ | ⟨i, p, hi, hp, rfl⟩ |
    ⟨i, ev, p, q, rfl, hi, hq, rfl⟩
  · refine ⟨hguarded, fun j p hj => ?_, fun j p hj => ?_, fun j p hj => ?_⟩
    · simp only [put_apply] at hj
      split at hj
      · exact absurd (Option.some.inj hj) (hrunning p)
      · exact h.last j p hj
    · exact h.pc j p (process?_put_same hx j ▸ hj)
    · exact h.fed j p (process?_put_same hx j ▸ hj)
  · have hfresh : p.pc ≠ .failed := by
      obtain ⟨w, -, rfl⟩ := Option.map_eq_some_iff.mp hp
      simp
    refine ⟨hguarded, fun j r hj hdone => ?_, fun j r hj => ?_, fun j r hj => ?_⟩
    · simp only [put_apply] at hj
      split at hj
      · next heq => simp [heq]
      · next hne =>
        -- Two daemons past the lock would both hold it.
        have hj' := h.guarded j (mem_active.mpr (.inr ⟨r, hj, hdone⟩))
        have hi' := h.guarded i (mem_active.mpr (.inl hi))
        exact absurd (Option.some.inj (hj'.symm.trans hi')) hne
    · rw [process?_put] at hj
      split at hj
      · cases hj
        exact hfresh
      · exact h.pc j r hj
    · rw [process?_put] at hj
      split at hj
      · cases hj
        exact ⟨s.disk, {}, fed_start hp⟩
      · exact h.fed j r hj
  · have hp : s.process? i = some p := process?_of hi
    refine ⟨hguarded, fun j r hj hdone => ?_, fun j r hj => ?_, fun j r hj => ?_⟩
    · simp only [put_apply] at hj
      split at hj
      · next heq =>
        cases hj
        exact heq ▸ h.last i p hi (not_done_of_step hq hdone)
      · exact h.last j r hj hdone
    · rw [process?_put] at hj
      split at hj
      · cases hj
        rcases pc_of_step hq with hpc | ⟨-, hfailed⟩
        · exact hpc ▸ h.pc i p hp
        · intro hpc
          obtain rfl := hfailed hpc
          exact he
      · exact h.pc j r hj
    · rw [process?_put] at hj
      split at hj
      · cases hj
        obtain ⟨d, l, hfed⟩ := h.fed i p hp
        obtain ⟨l', hfed', -⟩ := hfed.step hq
        exact ⟨d, l', hfed'⟩
      · exact h.fed j r hj

/-- The writer of a daemon that has returned has exited. -/
theorem writesCurrent_of_booted {e : SystemEvent} (h : Booted s) (hstep : s.step e = some t) :
    WritesCurrent s e := by
  cases e with
  | step i ev =>
    intro hreplaces
    simp only [System.step] at hstep
    split at hstep
    · next p hi =>
      obtain ⟨q, hq, -⟩ := Option.map_eq_some_iff.mp hstep
      have hp : s.process? i = some p := process?_of hi
      refine h.last i p hi ?_
      cases hpc : p.pc with
      | failed => exact absurd hpc (h.pc i p hp)
      | returned =>
        obtain ⟨d, l, hfed⟩ := h.fed i p hp
        cases ev with
        | write we =>
          obtain ⟨w, queue, lastWrite, hw, -⟩ := stepWriter_frame hq
          rw [runMirrored_exited (hfed.returned hpc)] at hw
          cases hw
        | _ => simp [Event.replaces] at hreplaces
      | _ => simp [Process.done, hpc]
    · cases hstep
  | _ => trivial

theorem serial_initial : Serial (Writer.loadOrInit disk) (.initial disk) fun _ => [] := by
  refine ⟨List.nodup_nil, nofun, rfl, fun pre i post heq => ?_⟩
  simp [System.initial] at heq

/-- However daemons are started, stopped and killed over the same directories, two are never
past the lock. If no boot fails behind it, what is in the file is, for each daemon in the
order in which they loaded it, a part of the updates it was sent from the first one on,
and all of them if it returned and its last write succeeded. -/
theorem state_file_serial {as : List SystemEvent}
    (hrun : Transition.run System.step (.initial disk) as = some t) :
    (∀ i j, t.Active i → t.Active j → i = j) ∧
    ((∀ i, SystemEvent.step i .bootFails ∉ as) → t.loads.Nodup ∧
      ∃ part : Nat → List StateUpdate,
        Writer.loadOrInit t.disk = (Writer.loadOrInit disk).applyAll (t.loads.flatMap part) ∧
        ∀ i ∈ t.loads, ∃ p, t.process? i = some p ∧ part i <+: p.sent ∧
          (p.pc = .returned → p.lastWrite = some .ok → part i = p.sent)) := by
  constructor
  · intro i j hi hj
    have hguarded : Guarded t := Transition.invariant_run
      (fun _ _ _ h hstep => guarded_step h hstep) booted_initial.guarded hrun
    exact Option.some.inj ((hguarded i hi).symm.trans (hguarded j hj))
  intro hboots
  have hholds : Transition.Along System.step (fun _ e => e.BootHolds) (.initial disk) as := by
    refine Transition.along_of_forall fun e he _ => ?_
    unfold SystemEvent.BootHolds
    split
    · exact hboots _ he
    · trivial
  have hstart : Booted (.initial disk) ∧
      ∃ part, Serial (Writer.loadOrInit disk) (.initial disk) part :=
    ⟨booted_initial, _, serial_initial⟩
  obtain ⟨-, part, hserial⟩ : Booted t ∧ ∃ part, Serial (Writer.loadOrInit disk) t part := by
    refine Transition.invariant_along
      (I := fun u => Booted u ∧ ∃ part, Serial (Writer.loadOrInit disk) u part)
      (fun s e u h he hstep => ?_) hstart hholds hrun
    obtain ⟨hbooted, part, hserial⟩ := h
    exact ⟨booted_step hbooted he hstep,
      hserial.step (writesCurrent_of_booted hbooted hstep) hstep⟩
  refine ⟨hserial.nodup, part, hserial.disk, fun i hi => ?_⟩
  obtain ⟨pre, post, hsplit⟩ := List.append_of_mem hi
  obtain ⟨p, d, l, hp, -, hfed, hpart⟩ := hserial.each pre i post hsplit
  rw [hpart]
  exact ⟨p, hp, hfed.persisted_prefix, hfed.persisted_returned⟩

/-- A daemon is killed with one of two updates saved, and the next one returns. -/
def restart : List SystemEvent :=
  [.launch 0, .lock 0, .load 0, .step 0 (.send (.pollTimestamp "a" 1)),
    .step 0 (.send (.pollTimestamp "a" 2)), .step 0 (.write (.receive [.pollTimestamp "a" 1])),
    .launch 1, .step 0 (.write .apply), .step 0 (.write .apply), .step 0 (.write (.persist .ok)),
    .crash 0, .lock 1, .load 1, .step 1 .serve, .step 1 .ready,
    .step 1 (.send (.pollTimestamp "b" 3)), .step 1 .signal, .step 1 .flowsJoined,
    .step 1 .stopServing, .step 1 .controlJoined,
    .step 1 (.write (.receive [.pollTimestamp "b" 3])), .step 1 (.write .apply),
    .step 1 (.write .apply), .step 1 (.write (.persist .ok)), .step 1 (.write .publish),
    .step 1 (.write .closed), .step 1 .writerJoined, .exit 1]

theorem restart_serial : ∃ t, Transition.run System.step (.initial none) restart = some t ∧
    t.loads = [0, 1] ∧ ∃ part : Nat → List StateUpdate,
      Writer.loadOrInit t.disk = State.default.applyAll (part 0 ++ part 1) ∧
      part 0 <+: [.pollTimestamp "a" 1, .pollTimestamp "a" 2] ∧ part 1 = [.pollTimestamp "b" 3] := by
  obtain ⟨t, hrun, hloads, p, q, hp, hq, hsent, hsent', hpc, hlast⟩ : ∃ t,
      Transition.run System.step (.initial none) restart = some t ∧ t.loads = [0, 1] ∧ ∃ p q,
      t.process? 0 = some p ∧ t.process? 1 = some q ∧
      p.sent = [.pollTimestamp "a" 1, .pollTimestamp "a" 2] ∧ q.sent = [.pollTimestamp "b" 3] ∧
      q.pc = .returned ∧ q.lastWrite = some .ok :=
    ⟨_, rfl, rfl, _, _, rfl, rfl, rfl, rfl, rfl, rfl⟩
  obtain ⟨-, part, hdisk, heach⟩ := (state_file_serial hrun).2 (by simp [restart])
  refine ⟨t, hrun, hloads, part, by simpa [hloads, Writer.loadOrInit] using hdisk, ?_, ?_⟩
  · obtain ⟨p', hp', hprefix, -⟩ := heach 0 (by simp [hloads])
    obtain rfl := Option.some.inj (hp.symm.trans hp')
    exact hsent ▸ hprefix
  · obtain ⟨q', hq', -, hall⟩ := heach 1 (by simp [hloads])
    obtain rfl := Option.some.inj (hq.symm.trans hq')
    exact (hall hpc hlast).trans hsent'

/-- With a boot that fails, what a daemon saved and returned from can be overwritten by the
writer that the failed one left behind. -/
theorem failed_boot_overwrites : ∃ as t, Transition.run System.step (.initial none) as = some t ∧
    t.disk = some (State.default.applyAll [.pollTimestamp "a" 1]) ∧
    ∃ p, t.process? 1 = some p ∧ p.pc = .returned ∧ p.lastWrite = some .ok ∧
      p.sent = [.pollTimestamp "b" 3] :=
  ⟨[.launch 0, .lock 0, .load 0, .step 0 .spawnFlow, .step 0 (.send (.pollTimestamp "a" 1)),
    .step 0 .bootFails, .launch 1, .lock 1, .load 1, .step 1 .serve, .step 1 .ready,
    .step 1 (.send (.pollTimestamp "b" 3)), .step 1 .signal, .step 1 .flowsJoined,
    .step 1 .stopServing, .step 1 .controlJoined,
    .step 1 (.write (.receive [.pollTimestamp "b" 3])), .step 1 (.write .apply),
    .step 1 (.write .apply), .step 1 (.write (.persist .ok)), .step 1 (.write .publish),
    .step 1 (.write .closed), .step 1 .writerJoined,
    .step 0 (.write (.receive [.pollTimestamp "a" 1])), .step 0 (.write .apply),
    .step 0 (.write .apply), .step 0 (.write (.persist .ok))],
    _, rfl, rfl, _, rfl, rfl, rfl, rfl⟩

end

end Gcit.Lifetime
