import Gcit.Supervisor.Change

/-! # The delay before a respawn

A panic schedules a watcher that asks for a respawn `RESPAWN_DELAY` later. The
request carries only the flow's name, and nothing takes it back: neither the
respawn nor a reload that has started another generation meanwhile. A request
that is due before the delay of a later panic is over is therefore served for
that panic too early.
-/

namespace Gcit.Supervisor

open Std Gcit Gcit.Git Gcit.Poll Gcit.Library Gcit.Library.Channel

/-- The flow whose panic the select loop handles when it joins this task. -/
def Daemon.joinsPanic (d : Daemon) (id : Token × FlowRole) : Option String :=
  match d.pc with
  | .select => (d.runtime.joinNext? id).bind fun (_, joined, _) => match joined with
    | .ok exit => exit.panic.map fun _ => exit.flow
    | .error _ => none
  | _ => none

/-- No respawn of the flow is asked for before the delay from now on is over. -/
def NoneScheduled (d : Daemon) (f : String) : Prop :=
  (∀ w ∈ d.watchers, w.request.flow = f → d.now + RESPAWN_DELAY ≤ w.due) ∧
    ∀ req ∈ d.respawnQueue.queue, req.flow ≠ f

instance decidableNoneScheduled (d : Daemon) (f : String) : Decidable (NoneScheduled d f) :=
  inferInstanceAs (Decidable (_ ∧ _))

/-- A panic of the flow is handled, and it alone decides when the flow comes back. -/
def PanicsAlone (d : Daemon) (id : Token × FlowRole) (f : String) : Prop :=
  d.joinsPanic id = some f ∧ NoneScheduled d f

/-- Everything a step does to the clock, the watchers and the respawn queue. -/
inductive Timers (d d' : Daemon) : Prop where
  | frame (hnow : d'.now = d.now) (hwatchers : d'.watchers = d.watchers)
      (hqueue : d'.respawnQueue.queue = d.respawnQueue.queue)
  | tick (elapsed : Duration) (hnow : d'.now = d.now + elapsed)
      (hwatchers : d'.watchers = d.watchers)
      (hqueue : d'.respawnQueue.queue = d.respawnQueue.queue)
  | fires (w : Watcher) (hw : w ∈ d.watchers) (hdue : w.due ≤ d.now) (hnow : d'.now = d.now)
      (hwatchers : d'.watchers ⊆ d.watchers)
      (hqueue : d'.respawnQueue.queue = d.respawnQueue.queue ++ [w.request])
  | panics (flow : String) (hnow : d'.now = d.now)
      (hwatchers : d'.watchers = d.watchers ++ [⟨d.now + RESPAWN_DELAY, ⟨flow, 0⟩⟩])
      (hqueue : d'.respawnQueue.queue = d.respawnQueue.queue)
  | serves (req : RespawnRequest) (hnow : d'.now = d.now)
      (hwatchers : d'.watchers = d.watchers ∨ d'.watchers = d.watchers ++
        [⟨d.now + RESPAWN_RETRY_INTERVAL, ⟨req.flow, req.attempts + 1⟩⟩])
      (hqueue : d.respawnQueue.queue = req :: d'.respawnQueue.queue)

namespace Daemon

variable {crates : Crates} {d d' : Daemon}

theorem send?_timers {u : StateUpdate} (h : d.send? u = some d') : Timers d d' := by
  obtain ⟨queue, -, rfl⟩ := Option.map_eq_some_iff.mp h
  exact .frame rfl rfl rfl

theorem watcherFires_timers {index : Nat} (h : d.watcherFires index = some d') : Timers d d' := by
  obtain ⟨w, hw, h⟩ := Option.bind_eq_some_iff.mp h
  obtain ⟨hdue, h⟩ := Option.ite_none_right_eq_some.mp h
  obtain ⟨queue, hqueue, rfl⟩ := Option.map_eq_some_iff.mp h
  obtain ⟨-, -, hsend⟩ := Mpsc.send?_eq_some hqueue
  exact .fires w (List.mem_of_getElem? hw) hdue rfl (List.eraseIdx_subset ..) hsend

theorem handleFlowExit_timers (r : Runtime) (joined : Except JoinError FlowExit) :
    Timers d ({ d with runtime := r }.handleFlowExit joined) := by
  unfold handleFlowExit
  generalize r.handleFlowExit joined = x
  obtain ⟨runtime, panic⟩ := x
  cases panic with
  | none => exact .frame rfl rfl rfl
  | some p => exact .panics p.1 rfl rfl rfl

theorem handleRespawnRequest_timers {req : RespawnRequest} {setup : Setup}
    {queue : Mpsc RespawnRequest RESPAWN_QUEUE} (hrecv : d.respawnQueue.recv? = some (req, queue)) :
    Timers d ({ d with respawnQueue := queue }.handleRespawnRequest crates req setup) := by
  obtain ⟨hqueue, -⟩ := Mpsc.recv?_eq_some hrecv
  unfold handleRespawnRequest
  split
  · exact .serves req rfl (.inr rfl) hqueue
  · simp only
    split
    · exact .serves req rfl (.inl rfl) hqueue
    · split
      · exact .serves req rfl (.inl rfl) hqueue
      · split
        · cases setup <;> exact .serves req rfl (.inl rfl) hqueue
        · exact .serves req rfl (.inl rfl) hqueue

theorem step_timers {e : Event} (h : d.step crates e = some d') : Timers d d' := by
  cases e with
  | tick elapsed =>
    cases h
    exact .tick elapsed rfl rfl rfl
  | finish id ending =>
    obtain ⟨r, -, rfl⟩ := Option.map_eq_some_iff.mp h
    exact .frame rfl rfl rfl
  | observe id update =>
    obtain ⟨t, -, h⟩ := Option.bind_eq_some_iff.mp h
    obtain ⟨-, h⟩ := Option.ite_none_right_eq_some.mp h
    obtain ⟨m, hm, rfl⟩ := Option.map_eq_some_iff.mp h
    obtain ⟨queue, -, rfl⟩ := Option.map_eq_some_iff.mp hm
    exact .frame rfl rfl rfl
  | runUpdate update =>
    obtain ⟨-, h⟩ := Option.ite_none_right_eq_some.mp h
    exact send?_timers h
  | taskError flow entry =>
    cases h
    exact .frame rfl rfl rfl
  | writerReceive count =>
    obtain ⟨writer, -, rfl⟩ := Option.map_eq_some_iff.mp h
    exact .frame rfl rfl rfl
  | writer e =>
    simp only [step, writerStep] at h
    split at h
    · cases h
    · cases h
    · obtain ⟨writer, -, rfl⟩ := Option.map_eq_some_iff.mp h
      exact .frame rfl rfl rfl
  | watcherFires index => exact watcherFires_timers h
  | joinNext id =>
    simp only [step] at h
    split at h
    · obtain ⟨⟨t, j, r⟩, -, rfl⟩ := Option.map_eq_some_iff.mp h
      exact handleFlowExit_timers r j
    · cases h
  | respawn setup =>
    simp only [step] at h
    split at h
    · obtain ⟨⟨req, queue⟩, hrecv, rfl⟩ := Option.map_eq_some_iff.mp h
      exact handleRespawnRequest_timers hrecv
    · cases h
  | reload loaded =>
    simp only [step] at h
    split at h
    · cases h
      cases loaded <;> exact .frame rfl rfl rfl
    · cases h
  | drainJoin id =>
    simp only [step] at h
    split at h
    · obtain ⟨-, h⟩ := Option.ite_none_right_eq_some.mp h
      obtain ⟨⟨t, j, r⟩, -, rfl⟩ := Option.map_eq_some_iff.mp h
      exact .frame rfl rfl rfl
    · cases h
  | drainDone | drainTimeout =>
    simp only [step] at h
    split at h
    · obtain ⟨-, rfl⟩ := Transition.guard_eq_some.mp h
      exact .frame rfl rfl rfl
    · cases h
  | emit =>
    simp only [step] at h
    split at h
    · obtain ⟨m, hm, rfl⟩ := Option.map_eq_some_iff.mp h
      obtain ⟨queue, -, rfl⟩ := Option.map_eq_some_iff.mp hm
      exact .frame rfl rfl rfl
    · cases h
  | pushConfig =>
    simp only [step] at h
    split at h <;> cases h
    exact .frame rfl rfl rfl
  | spawnNext setup =>
    simp only [step] at h
    split at h
    · split at h <;> cases h
      · cases setup <;> exact .frame rfl rfl rfl
      · exact .frame rfl rfl rfl
    · cases h
      unfold spawnNewGeneration
      split
      · exact .frame rfl rfl rfl
      · cases setup <;> exact .frame rfl rfl rfl
    · cases h
  | finalize =>
    simp only [step] at h
    split at h <;> cases h <;> exact .frame rfl rfl rfl

theorem spawns_respawn {setup : Setup} {flow : FlowConfig}
    (h : d.spawns (.respawn setup) = some flow) :
    ∃ req ∈ d.respawnQueue.queue, req.flow = flow.name := by
  cases SpawnSite.of_spawns h with
  | respawn _ hreq _ _ hfind =>
    obtain ⟨hqueue, -⟩ := Mpsc.recv?_eq_some hreq
    exact ⟨_, by simp [hqueue], (Config.mem_of_find? hfind).2.symm⟩

end Daemon

structure Delayed (f : String) (panicked : DateTime) (d : Daemon) : Prop where
  past : panicked ≤ d.now
  watchers : ∀ w ∈ d.watchers, w.request.flow = f → panicked + RESPAWN_DELAY ≤ w.due
  queued : ∀ req ∈ d.respawnQueue.queue, req.flow = f → panicked + RESPAWN_DELAY ≤ d.now

namespace Delayed

variable {crates : Crates} {f : String} {panicked : DateTime} {d d' : Daemon} {e : Event}

theorem of_noneScheduled (h : NoneScheduled d f) : Delayed f d.now d where
  past := Int.le_refl _
  watchers := h.1
  queued req hreq hflow := absurd hflow (h.2 req hreq)

theorem timers (h : Delayed f panicked d) (ht : Timers d d') : Delayed f panicked d' := by
  cases ht with
  | frame hnow hwatchers hqueue =>
    exact ⟨hnow ▸ h.past, hwatchers ▸ h.watchers, by rw [hqueue, hnow]; exact h.queued⟩
  | tick elapsed hnow hwatchers hqueue =>
    have hle : d.now ≤ d'.now := hnow ▸ Int.le_add_of_nonneg_right (Int.natCast_nonneg _)
    refine ⟨h.past.trans hle, hwatchers ▸ h.watchers, ?_⟩
    intro req hreq hflow
    exact (h.queued req (hqueue ▸ hreq) hflow).trans hle
  | fires w hw hdue hnow hwatchers hqueue =>
    refine ⟨hnow ▸ h.past, fun v hv => h.watchers v (hwatchers hv), ?_⟩
    intro req hreq hflow
    rw [hqueue, List.mem_append, List.mem_singleton] at hreq
    rw [hnow]
    rcases hreq with hreq | rfl
    · exact h.queued req hreq hflow
    · exact (h.watchers w hw hflow).trans hdue
  | panics flow hnow hwatchers hqueue =>
    refine ⟨hnow ▸ h.past, ?_, by rw [hqueue, hnow]; exact h.queued⟩
    intro w hw hflow
    rw [hwatchers, List.mem_append, List.mem_singleton] at hw
    rcases hw with hw | rfl
    · exact h.watchers w hw hflow
    · exact Int.add_le_add_right h.past _
  | serves req hnow hwatchers hqueue =>
    refine ⟨hnow ▸ h.past, ?_, ?_⟩
    · intro w hw hflow
      rcases hwatchers with heq | heq
      · exact h.watchers w (heq ▸ hw) hflow
      · rw [heq, List.mem_append, List.mem_singleton] at hw
        rcases hw with hw | rfl
        · exact h.watchers w hw hflow
        · -- the request being put off was itself due only after the delay
          have hdue := h.queued req (by simp [hqueue]) hflow
          exact hdue.trans (Int.le_add_of_nonneg_right (Int.natCast_nonneg _))
    · intro r hr hflow
      rw [hnow]
      exact h.queued r (hqueue ▸ List.mem_cons_of_mem req hr) hflow

theorem run {events : List Event} (h : Delayed f panicked d)
    (hrun : Transition.run (Daemon.step crates) d events = some d') : Delayed f panicked d' :=
  Transition.invariant_run (fun _ _ _ h hstep => h.timers (Daemon.step_timers hstep)) h hrun

end Delayed

/-- In every run, a panic of a flow that is handled while no earlier request for
it is outstanding is followed by a respawn of the flow only `RESPAWN_DELAY` later,
whatever exits, reloads and further panics come in between. -/
theorem respawn_waits_after_panic (crates : Crates) (config : Config) (disk : Option State)
    (now : DateTime) (observed : List Observation) (before after : List Event)
    (id : Token × FlowRole) (setup : Setup) (d d₁ : Daemon) (f : String) (flow : FlowConfig)
    (hrun : Transition.run (Daemon.step crates) (boot config disk now observed)
      (before ++ .joinNext id :: after) = some d₁)
    (hbefore : Transition.run (Daemon.step crates) (boot config disk now observed) before = some d)
    (halone : PanicsAlone d id f) (hspawns : d₁.spawns (.respawn setup) = some flow)
    (hname : flow.name = f) : d.now + RESPAWN_DELAY ≤ d₁.now := by
  obtain ⟨m, hm, hafter⟩ := Transition.run_append_eq_some.mp hrun
  obtain rfl : d = m := Option.some.inj (hbefore.symm.trans hm)
  obtain ⟨req, hreq, hflow⟩ := Daemon.spawns_respawn hspawns
  exact ((Delayed.of_noneScheduled halone.2).run hafter).queued req hreq (hflow.trans hname)

/-- The poll task of one flow panics and its dispatcher, told to stop, returns. -/
def pollPanics (generation : Token) : List Event :=
  [.finish (generation, .poll) (.panicked "index out of bounds"), .joinNext (generation, .poll),
    .finish (generation, .dispatcher) .returned, .joinNext (generation, .dispatcher)]

theorem panicked_flow_respawns_after_delay :
    ∃ d d₁, Transition.run (Daemon.step kernelCrates)
        (boot (oneFlow (kernelFlow "linux" "linux.git" "refs/heads/master")) none 0 [])
        [.spawnNext .ready, .finalize, .finish (0, .poll) (.panicked "index out of bounds")] =
          some d ∧
      PanicsAlone d (0, .poll) "linux" ∧
      Transition.run (Daemon.step kernelCrates)
        (boot (oneFlow (kernelFlow "linux" "linux.git" "refs/heads/master")) none 0 [])
        ([.spawnNext .ready, .finalize, .finish (0, .poll) (.panicked "index out of bounds")] ++
          .joinNext (0, .poll) :: [.finish (0, .dispatcher) .returned, .joinNext (0, .dispatcher),
            .tick (seconds 31), .watcherFires 0]) = some d₁ ∧
      d₁.spawns (.respawn .ready) =
        some (kernelFlow "linux" "linux.git" "refs/heads/master") ∧
      d.now + RESPAWN_DELAY ≤ d₁.now := by
  refine ⟨_, _, (Option.some_get (by decide +kernel)).symm, ⟨by decide +kernel, by decide +kernel⟩,
    (Option.some_get (by decide +kernel)).symm, by decide +kernel, ?_⟩
  exact respawn_waits_after_panic kernelCrates _ none 0 [] _ _ (0, .poll) .ready _ _ "linux"
    (kernelFlow "linux" "linux.git" "refs/heads/master") (Option.some_get _).symm
    (Option.some_get _).symm ⟨by decide +kernel, by decide +kernel⟩ (by decide +kernel) rfl

/-- A reload starts the next generation while the request for the first one is
still waiting; that generation panics 25 seconds later, and the old request
respawns it after 5 seconds. -/
theorem stale_request_respawns_early :
    ∃ d d₁, Transition.run (Daemon.step kernelCrates)
        (boot (oneFlow (kernelFlow "linux" "linux.git" "refs/heads/master")) none 0 [])
        ([.spawnNext .ready, .finalize] ++ pollPanics 0 ++
          [.reload (.ok (oneFlow (kernelFlow "linux" "linux.git" "refs/heads/master"))), .drainDone,
            .pushConfig, .spawnNext .ready, .finalize, .tick (seconds 25),
            .finish (1, .poll) (.panicked "index out of bounds")]) = some d ∧
      d.joinsPanic (1, .poll) = some "linux" ∧
      Transition.run (Daemon.step kernelCrates) d
        [.joinNext (1, .poll), .finish (1, .dispatcher) .returned, .joinNext (1, .dispatcher),
          .tick (seconds 5), .watcherFires 0] = some d₁ ∧
      d₁.spawns (.respawn .ready) =
        some (kernelFlow "linux" "linux.git" "refs/heads/master") ∧
      d₁.now = d.now + seconds 5 ∧ d₁.now < d.now + RESPAWN_DELAY := by
  obtain ⟨d, hrun, hpanic, d₁, hlater, hspawns, hnow, hearly⟩ :
      ∃ d ∈ Transition.run (Daemon.step kernelCrates)
        (boot (oneFlow (kernelFlow "linux" "linux.git" "refs/heads/master")) none 0 [])
        ([.spawnNext .ready, .finalize] ++ pollPanics 0 ++
          [.reload (.ok (oneFlow (kernelFlow "linux" "linux.git" "refs/heads/master"))), .drainDone,
            .pushConfig, .spawnNext .ready, .finalize, .tick (seconds 25),
            .finish (1, .poll) (.panicked "index out of bounds")]),
        d.joinsPanic (1, .poll) = some "linux" ∧
        ∃ d₁ ∈ Transition.run (Daemon.step kernelCrates) d
          [.joinNext (1, .poll), .finish (1, .dispatcher) .returned, .joinNext (1, .dispatcher),
            .tick (seconds 5), .watcherFires 0],
          d₁.spawns (.respawn .ready) =
            some (kernelFlow "linux" "linux.git" "refs/heads/master") ∧
          d₁.now = d.now + seconds 5 ∧ d₁.now < d.now + RESPAWN_DELAY := by
    decide +kernel
  exact ⟨d, d₁, hrun, hpanic, hlater, hspawns, hnow, hearly⟩

end Gcit.Supervisor
