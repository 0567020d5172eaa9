import Gcit.Supervisor.Daemon

/-! # What one step does to the supervisor

`Change` lists every way a step of the daemon can change the runtime, the
supervisor's program counter and the watched configuration. The invariants of
the runtime are proved against this list, not against the step function.
-/

namespace Gcit.Supervisor

open Std Gcit Gcit.Git Gcit.Poll Gcit.Library Gcit.Library.Channel Gcit.Library.OrderedMap

/-- The flow of which this event, if it happens now, starts a generation. -/
def Daemon.spawns (d : Daemon) : Event → Option FlowConfig
  | .spawnNext .ready => match d.pc with
    | .booting (flow :: _) => if flow.enabled then some flow else none
    | .spawning reload (flow :: _) =>
      if flow.enabled = false ∨ reload.plan.toKeep.contains flow.name then none else some flow
    | _ => none
  | .respawn .ready => match d.pc with
    | .select => d.respawnQueue.recv?.bind fun (req, _) =>
      if d.runtime.pendingExits.contains req.flow ∧ req.attempts < RESPAWN_MAX_ATTEMPTS then none
      else if d.runtime.handles.contains req.flow then none
      else (d.config.find? req.flow).filter FlowConfig.enabled
    | _ => none
  | _ => none

inductive SpawnSite (d : Daemon) (flow : FlowConfig) : Event → Prop where
  | boot {rest : List FlowConfig} (hpc : d.pc = .booting (flow :: rest))
      (henabled : flow.enabled = true) : SpawnSite d flow (.spawnNext .ready)
  | reload {reload : Reload} {rest : List FlowConfig} (hpc : d.pc = .spawning reload (flow :: rest))
      (hspawn : ¬ (flow.enabled = false ∨ reload.plan.toKeep.contains flow.name)) :
      SpawnSite d flow (.spawnNext .ready)
  | respawn {req : RespawnRequest} {queue : Mpsc RespawnRequest RESPAWN_QUEUE}
      (hpc : d.pc = .select) (hreq : d.respawnQueue.recv? = some (req, queue))
      (hgate : ¬ (d.runtime.pendingExits.contains req.flow ∧ req.attempts < RESPAWN_MAX_ATTEMPTS))
      (hfree : ¬ d.runtime.handles.contains req.flow)
      (hfind : d.config.find? req.flow = some flow) (henabled : flow.enabled = true) :
      SpawnSite d flow (.respawn .ready)

theorem SpawnSite.of_spawns {d : Daemon} {e : Event} {flow : FlowConfig}
    (h : d.spawns e = some flow) : SpawnSite d flow e := by
  unfold Daemon.spawns at h
  split at h
  · split at h
    · next hpc =>
      obtain ⟨henabled, h⟩ := Option.ite_none_right_eq_some.mp h
      cases h
      exact .boot hpc henabled
    · next hpc =>
      obtain ⟨hspawn, h⟩ := Option.ite_none_left_eq_some.mp h
      cases h
      exact .reload hpc hspawn
    · cases h
  · split at h
    · next hpc =>
      obtain ⟨⟨req, queue⟩, hreq, h⟩ := Option.bind_eq_some_iff.mp h
      obtain ⟨hgate, h⟩ := Option.ite_none_left_eq_some.mp h
      obtain ⟨hfree, h⟩ := Option.ite_none_left_eq_some.mp h
      obtain ⟨hfind, henabled⟩ := Option.filter_eq_some_iff.mp h
      exact .respawn hpc hreq hgate hfree hfind henabled
    · cases h
  · cases h

def Event.joins : Event → Option (Token × FlowRole)
  | .joinNext id => some id
  | _ => none

def Event.drains : Event → Option (Token × FlowRole)
  | .drainJoin id => some id
  | _ => none

/-- The exit of the task names its flow: it returned, or its panic was caught. -/
def Task.named (t : Task) : Bool :=
  match t.ending with
  | some .returned | some (.panicked _) => true
  | _ => false

inductive Change (crates : Crates) (d : Daemon) : Event → Runtime → Pc → Config → Prop where
  | frame {e : Event} (he : e ≠ .emit) : Change crates d e d.runtime d.pc d.config
  | finish {id : Token × FlowRole} {ending : TaskEnd} {r : Runtime}
      (h : d.runtime.finish id ending = some r) :
      Change crates d (.finish id ending) r d.pc d.config
  | exit {id : Token × FlowRole} {t : Task} {j : Except JoinError FlowExit} {r : Runtime}
      (hpc : d.pc = .select) (h : d.runtime.joinNext? id = some (t, j, r)) :
      Change crates d (.joinNext id) (r.handleFlowExit j).1 .select d.config
  | release {setup : Setup} (flow : String) (hpc : d.pc = .select) :
      Change crates d (.respawn setup) (d.runtime.releaseRespawn flow) .select d.config
  | respawn {flow : FlowConfig} {queue : Mpsc RespawnRequest RESPAWN_QUEUE} {attempts : Nat}
      (effective : EffectivePoll) (at_ : Option DateTime)
      (hpc : d.pc = .select) (hreq : d.respawnQueue.recv? = some (⟨flow.name, attempts⟩, queue))
      (hmem : flow ∈ d.config.flow) (hfree : d.runtime.handles[flow.name]? = none)
      (hspawns : d.spawns (.respawn .ready) = some flow) :
      Change crates d (.respawn .ready) ((d.runtime.releaseRespawn flow.name).addPair flow effective
        (readPersistedLastSha d.writer.mirror flow.name) at_) .select d.config
  | reload {newConfig : Config} (deadline : DateTime) (hpc : d.pc = .select) :
      Change crates d (.reload (.ok newConfig))
        (applyActionsToRegistry
          (computeReloadActions crates d.config newConfig d.runtime.handles) d.runtime).1
        (.draining ⟨newConfig, (applyActionsToRegistry
          (computeReloadActions crates d.config newConfig d.runtime.handles) d.runtime).2,
          false, []⟩ deadline) d.config
  | drainJoin {id : Token × FlowRole} {reload : Reload} {deadline : DateTime} {t : Task}
      {j : Except JoinError FlowExit} {r : Runtime} (hpc : d.pc = .draining reload deadline)
      (h : d.runtime.joinNext? id = some (t, j, r)) :
      Change crates d (.drainJoin id) r (.draining reload deadline) d.config
  | drained {reload : Reload} {deadline : DateTime} (hpc : d.pc = .draining reload deadline)
      (hlen : d.runtime.joinSet.length ≤ reload.plan.toKeep.size * 2) :
      Change crates d .drainDone d.runtime
        (.emitting reload (reload.plan.removedFlows ++ reload.plan.urlResets)) d.config
  | timedOut {reload : Reload} {deadline : DateTime} (hpc : d.pc = .draining reload deadline) :
      Change crates d .drainTimeout d.runtime (.emitting { reload with timedOut := true }
        (reload.plan.removedFlows ++ reload.plan.urlResets)) d.config
  | emitted {reload : Reload} {name : String} {names : List String}
      (hpc : d.pc = .emitting reload (name :: names)) :
      Change crates d .emit d.runtime (.emitting reload names) d.config
  | pushed {reload : Reload} (hpc : d.pc = .emitting reload []) :
      Change crates d .pushConfig d.runtime (.spawning reload reload.newConfig.flow)
        reload.newConfig
  | bootSpawn {flow : FlowConfig} {rest : List FlowConfig} (effective : EffectivePoll)
      (at_ : Option DateTime) (hpc : d.pc = .booting (flow :: rest))
      (hspawns : d.spawns (.spawnNext .ready) = some flow) :
      Change crates d (.spawnNext .ready) (d.runtime.addPair flow effective
        (readPersistedLastSha d.writer.mirror flow.name) at_) (.booting rest) d.config
  | bootSkip {setup : Setup} {flow : FlowConfig} {rest : List FlowConfig}
      (hpc : d.pc = .booting (flow :: rest)) :
      Change crates d (.spawnNext setup) d.runtime (.booting rest) d.config
  | reloadSpawn {reload : Reload} {flow : FlowConfig} {rest : List FlowConfig}
      (effective : EffectivePoll) (at_ : Option DateTime)
      (hpc : d.pc = .spawning reload (flow :: rest))
      (hkeep : flow.name ∉ reload.plan.toKeep)
      (hspawns : d.spawns (.spawnNext .ready) = some flow) :
      Change crates d (.spawnNext .ready) ((d.runtime.releaseRespawn flow.name).addPair flow effective
        (readPersistedLastSha d.writer.mirror flow.name) at_) (.spawning reload rest) d.config
  | reloadFailed {setup : Setup} {reload : Reload} {flow : FlowConfig} {rest : List FlowConfig}
      (hpc : d.pc = .spawning reload (flow :: rest)) :
      Change crates d (.spawnNext setup) (d.runtime.releaseRespawn flow.name)
        (.spawning { reload with failed := reload.failed ++ [flow.name] } rest) d.config
  | reloadSkip {setup : Setup} {reload : Reload} {flow : FlowConfig} {rest : List FlowConfig}
      (hpc : d.pc = .spawning reload (flow :: rest))
      (hskip : flow.enabled = false ∨ flow.name ∈ reload.plan.toKeep) :
      Change crates d (.spawnNext setup) d.runtime (.spawning reload rest) d.config
  | bootDone (hpc : d.pc = .booting []) : Change crates d .finalize d.runtime .select d.config
  | reloadDone {reload : Reload} (hpc : d.pc = .spawning reload []) :
      Change crates d .finalize d.runtime .select d.config

variable {crates : Crates} {d d' : Daemon}

theorem Change.of_frame {e : Event} (he : e ≠ .emit)
    (h : d'.runtime = d.runtime ∧ d'.pc = d.pc ∧ d'.config = d.config) :
    Change crates d e d'.runtime d'.pc d'.config := by
  obtain ⟨hr, hpc, hc⟩ := h
  rw [hr, hpc, hc]
  exact .frame he

namespace Daemon

theorem send?_frame {u : StateUpdate} (h : d.send? u = some d') :
    d'.runtime = d.runtime ∧ d'.pc = d.pc ∧ d'.config = d.config := by
  unfold send? at h
  obtain ⟨queue, -, rfl⟩ := Option.map_eq_some_iff.mp h
  exact ⟨rfl, rfl, rfl⟩

theorem noteObservation_frame (t : Task) (u : StateUpdate) :
    (d.noteObservation t u).runtime = d.runtime ∧ (d.noteObservation t u).pc = d.pc ∧
      (d.noteObservation t u).config = d.config := by
  exact ⟨rfl, rfl, rfl⟩

theorem handleFlowExit_fields (joined : Except JoinError FlowExit) :
    (d.handleFlowExit joined).runtime = (d.runtime.handleFlowExit joined).1 ∧
      (d.handleFlowExit joined).pc = d.pc ∧ (d.handleFlowExit joined).config = d.config := by
  unfold handleFlowExit
  generalize d.runtime.handleFlowExit joined = x
  obtain ⟨runtime, panic⟩ := x
  cases panic <;> exact ⟨rfl, rfl, rfl⟩

theorem writerReceive_frame {count : Nat} (h : d.writerReceive count = some d') :
    d'.runtime = d.runtime ∧ d'.pc = d.pc ∧ d'.config = d.config := by
  unfold writerReceive at h
  obtain ⟨writer, -, rfl⟩ := Option.map_eq_some_iff.mp h
  exact ⟨rfl, rfl, rfl⟩

theorem writerStep_frame {e : Writer.Event} (h : d.writerStep e = some d') :
    d'.runtime = d.runtime ∧ d'.pc = d.pc ∧ d'.config = d.config := by
  unfold writerStep at h
  split at h
  · cases h
  · cases h
  · obtain ⟨writer, -, rfl⟩ := Option.map_eq_some_iff.mp h
    exact ⟨rfl, rfl, rfl⟩

theorem watcherFires_frame {index : Nat} (h : d.watcherFires index = some d') :
    d'.runtime = d.runtime ∧ d'.pc = d.pc ∧ d'.config = d.config := by
  unfold watcherFires at h
  obtain ⟨w, -, h⟩ := Option.bind_eq_some_iff.mp h
  obtain ⟨-, h⟩ := Option.ite_none_right_eq_some.mp h
  obtain ⟨queue, -, rfl⟩ := Option.map_eq_some_iff.mp h
  exact ⟨rfl, rfl, rfl⟩

theorem handleRespawnRequest_change {req : RespawnRequest} {setup : Setup}
    {queue : Mpsc RespawnRequest RESPAWN_QUEUE} (hpc : d.pc = .select)
    (hreq : d.respawnQueue.recv? = some (req, queue))
    (hd' : d' = { d with respawnQueue := queue }.handleRespawnRequest crates req setup) :
    Change crates d (.respawn setup) d'.runtime d'.pc d'.config := by
  subst hd'
  have hrelease : Change crates d (.respawn setup) (d.runtime.releaseRespawn req.flow) .select
      d.config := .release req.flow hpc
  rw [← hpc] at hrelease
  unfold handleRespawnRequest
  split
  · exact .frame nofun
  · next hgate =>
    simp only
    split
    · exact hrelease
    · next hfree =>
      split
      · exact hrelease
      · next flow hfind =>
        obtain ⟨hmem, hname⟩ := Config.mem_of_find? hfind
        split
        · next henabled =>
          cases setup with
          | ready =>
            obtain ⟨name, attempts⟩ := req
            obtain rfl : flow.name = name := hname
            have hnone : d.runtime.handles[flow.name]? = none := by
              simpa [releaseRespawn, Runtime.releaseRespawn] using hfree
            have hspawns : d.spawns (.respawn .ready) = some flow := by
              simp only [spawns, hpc, hreq, Option.bind_some]
              rw [if_neg hgate, if_neg (show ¬ d.runtime.handles.contains flow.name = true from hfree)]
              exact Option.filter_eq_some_iff.mpr ⟨hfind, henabled⟩
            have hspawn : Change crates d (.respawn .ready) _ .select d.config := .respawn
              (effectivePoll d.config.poll flow.poll
                (autoDetect crates.toUrlCrates flow.source.url))
              (readPersistedLastDispatchedAt d.writer.mirror flow.name) hpc hreq hmem hnone
              hspawns
            rw [← hpc] at hspawn
            exact hspawn
          | notifierFailed err => exact hrelease
          | credentialFailed err => exact hrelease
        · exact hrelease

theorem spawnNewGeneration_change {reload : Reload} {flow : FlowConfig} {rest : List FlowConfig}
    {setup : Setup} (hpc : d.pc = .spawning reload (flow :: rest))
    (hd' : d' = d.spawnNewGeneration crates reload flow rest setup) :
    Change crates d (.spawnNext setup) d'.runtime d'.pc d'.config := by
  subst hd'
  unfold spawnNewGeneration
  split
  · next hskip => exact .reloadSkip hpc (by simpa using hskip)
  · next hskip =>
    have hkeep : flow.name ∉ reload.plan.toKeep := by
      intro hmem
      exact hskip (.inr (by simpa using hmem))
    cases setup with
    | ready => exact .reloadSpawn _ _ hpc hkeep (by simp only [spawns, hpc, if_neg hskip])
    | notifierFailed err => exact .reloadFailed hpc
    | credentialFailed err => exact .reloadFailed hpc

/-- Everything a step can do to the runtime, the program counter and the configuration. -/
theorem step_change {e : Event} (h : d.step crates e = some d') :
    Change crates d e d'.runtime d'.pc d'.config := by
  cases e with
  | tick elapsed => cases h; exact .frame nofun
  | finish id ending =>
    obtain ⟨r, hr, rfl⟩ := Option.map_eq_some_iff.mp h
    exact .finish hr
  | observe id update =>
    obtain ⟨t, -, h⟩ := Option.bind_eq_some_iff.mp h
    obtain ⟨-, h⟩ := Option.ite_none_right_eq_some.mp h
    obtain ⟨m, hm, rfl⟩ := Option.map_eq_some_iff.mp h
    obtain ⟨hr, hp, hc⟩ := send?_frame hm
    obtain ⟨hr', hp', hc'⟩ := noteObservation_frame (d := m) t update
    exact .of_frame nofun ⟨hr'.trans hr, hp'.trans hp, hc'.trans hc⟩
  | runUpdate update =>
    obtain ⟨-, h⟩ := Option.ite_none_right_eq_some.mp h
    exact .of_frame nofun (send?_frame h)
  | taskError flow entry => cases h; exact .frame nofun
  | writerReceive count => exact .of_frame nofun (writerReceive_frame h)
  | writer e => exact .of_frame nofun (writerStep_frame h)
  | watcherFires index => exact .of_frame nofun (watcherFires_frame h)
  | joinNext id =>
    simp only [step] at h
    split at h
    · next hpc =>
      obtain ⟨⟨t, j, r⟩, hjoin, rfl⟩ := Option.map_eq_some_iff.mp h
      obtain ⟨hr, hp, hc⟩ := handleFlowExit_fields (d := { d with runtime := r }) j
      rw [hr, hp, hc]
      simp only [hpc]
      exact .exit hpc hjoin
    · cases h
  | respawn setup =>
    simp only [step] at h
    split at h
    · next hpc =>
      obtain ⟨⟨req, queue⟩, hrecv, rfl⟩ := Option.map_eq_some_iff.mp h
      exact handleRespawnRequest_change hpc hrecv rfl
    · cases h
  | reload loaded =>
    simp only [step] at h
    split at h
    · next hpc =>
      cases h
      cases loaded with
      | error message => exact .frame nofun
      | ok newConfig => exact .reload _ hpc
    · cases h
  | drainJoin id =>
    simp only [step] at h
    split at h
    · next reload deadline hpc =>
      obtain ⟨-, h⟩ := Option.ite_none_right_eq_some.mp h
      obtain ⟨⟨t, j, r⟩, hjoin, rfl⟩ := Option.map_eq_some_iff.mp h
      simp only [hpc]
      exact .drainJoin hpc hjoin
    · cases h
  | drainDone =>
    simp only [step] at h
    split at h
    · next hpc =>
      obtain ⟨hlen, rfl⟩ := Transition.guard_eq_some.mp h
      exact .drained hpc hlen
    · cases h
  | drainTimeout =>
    simp only [step] at h
    split at h
    · next hpc =>
      obtain ⟨-, rfl⟩ := Transition.guard_eq_some.mp h
      exact .timedOut hpc
    · cases h
  | emit =>
    simp only [step] at h
    split at h
    · next hpc =>
      obtain ⟨m, hm, rfl⟩ := Option.map_eq_some_iff.mp h
      obtain ⟨hr, -, hc⟩ := send?_frame hm
      simp only [hr, hc]
      exact .emitted hpc
    · cases h
  | pushConfig =>
    simp only [step] at h
    split at h
    · next hpc => cases h; exact .pushed hpc
    · cases h
  | spawnNext setup =>
    simp only [step] at h
    split at h
    · next flow rest hpc =>
      split at h
      · next henabled =>
        cases h
        cases setup with
        | ready => exact .bootSpawn _ _ hpc (by simp only [spawns, hpc, if_pos henabled])
        | notifierFailed err => exact .bootSkip hpc
        | credentialFailed err => exact .bootSkip hpc
      · cases h
        exact .bootSkip hpc
    · next hpc =>
      cases h
      exact spawnNewGeneration_change hpc rfl
    · cases h
  | finalize =>
    simp only [step] at h
    split at h
    · next hpc => cases h; exact .bootDone hpc
    · next hpc => cases h; exact .reloadDone hpc
    · cases h

end Daemon

end Gcit.Supervisor
