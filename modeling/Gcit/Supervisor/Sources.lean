import Gcit.Supervisor.Seeds

/-! # Seeds come from the flow's own source

A recorded SHA is explained when the configuration in force, or about to be,
gives its flow a source at which that SHA was observed, or when the flow's removal
is about to be sent. A settled mirror then never seeds a poll loop with the SHA
of another source.
-/

namespace Gcit.Supervisor

open Std Gcit Gcit.Git Gcit.Poll Gcit.Library Gcit.Library.OrderedMap

/-- The flows whose removal the reload in progress has still to send. -/
def Pc.pending : Pc → List String
  | .draining reload _ => reload.plan.removedFlows ++ reload.plan.urlResets
  | .emitting _ names => names
  | _ => []

/-- The configuration that the next generations will be spawned from. -/
def Pc.target (config : Config) : Pc → Config
  | .draining reload _ | .emitting reload _ | .spawning reload _ => reload.newConfig
  | _ => config

def SameSource (a b : FlowConfig) : Prop :=
  a.source.url = b.source.url ∧ a.source.refName = b.source.refName

instance decidableSameSource (a b : FlowConfig) : Decidable (SameSource a b) :=
  inferInstanceAs (Decidable (_ ∧ _))

/-- The configuration gives the flow a source at which the SHA was observed. -/
def Sourced (config : Config) (observed : List Observation) (f : String) (sha : ObjectId) : Prop :=
  ∃ flow ∈ config.flow, flow.name = f ∧
    ⟨f, flow.source.url, flow.source.refName, sha⟩ ∈ observed

def Explained (initial : State) (sent : List StateUpdate) (observed : List Observation)
    (pending : List String) (target : Config) : Prop :=
  ∀ f sha, recordedSha (initial.applyAll sent) f = some sha →
    f ∈ pending ∨ Sourced target observed f sha

namespace Explained

variable {initial : State} {sent : List StateUpdate} {observed : List Observation}
  {pending : List String} {target : Config}

theorem unrelated (h : Explained initial sent observed pending target) {u : StateUpdate}
    (hu : ∀ f, observes f u = false ∧ u ≠ .flowRemoved f) :
    Explained initial (sent ++ [u]) observed pending target := by
  intro f sha hrec
  rw [State.applyAll_concat, recordedSha_other _ (hu f).1 (hu f).2] at hrec
  exact h f sha hrec

theorem observation (h : Explained initial sent observed pending target) {t : Task}
    (hsource : t.flow ∈ pending ∨ ∃ flow ∈ target.flow, flow.name = t.flow ∧ SameSource flow t.config)
    (sha : ObjectId) (at_ : DateTime) (dispatched cooldown : Option DateTime) :
    Explained initial (sent ++ [.pollObservation t.flow sha at_ dispatched cooldown])
      (observed ++ [⟨t.flow, t.config.source.url, t.config.source.refName, sha⟩]) pending target := by
  intro f sha' hrec
  rw [State.applyAll_concat] at hrec
  rcases eq_or_ne t.flow f with rfl | hf
  · rw [recordedSha_observation] at hrec
    cases hrec
    apply hsource.imp_right
    rintro ⟨flow, hflow, hname, hurl, href⟩
    exact ⟨flow, hflow, hname, by simp [hurl, href]⟩
  · have hother : observes f (.pollObservation t.flow sha at_ dispatched cooldown) = false := by
      simpa [observes] using hf
    rw [recordedSha_other _ hother (by simp)] at hrec
    apply (h f sha' hrec).imp_right
    rintro ⟨flow, hflow, hname, hmem⟩
    exact ⟨flow, hflow, hname, List.mem_append_left _ hmem⟩

theorem removed {name : String} {names : List String}
    (h : Explained initial sent observed (name :: names) target) :
    Explained initial (sent ++ [.flowRemoved name]) observed names target := by
  intro f sha hrec
  rw [State.applyAll_concat] at hrec
  rcases eq_or_ne name f with rfl | hf
  · rw [recordedSha_removed] at hrec
    cases hrec
  · rw [recordedSha_other _ rfl fun heq => hf (StateUpdate.flowRemoved.inj heq)] at hrec
    exact (h f sha hrec).imp_left fun hmem => (List.mem_cons.mp hmem).resolve_left (Ne.symm hf)

/-- A reload sends the removal of every flow whose recorded SHA the new
configuration does not explain, if it moves recorded flows only while they are
live and to another url. -/
theorem reload {crates : Crates} {old new : Config} {r r' : Runtime} {plan : ReloadPlan}
    (h : Explained initial sent observed [] old) (hplan : Planned crates old new r r' plan)
    (hmoves : ∀ of ∈ old.flow, ∀ nf ∈ new.flow, nf.name = of.name →
      (recordedSha (initial.applyAll sent) nf.name).isSome →
      SameSource of nf ∨ (r.handles[nf.name]?).isSome ∧ of.source.url ≠ nf.source.url) :
    Explained initial sent observed (plan.removedFlows ++ plan.urlResets) new := by
  intro f sha hrec
  obtain ⟨of, hof, rfl, hmem⟩ := (h f sha hrec).resolve_left List.not_mem_nil
  have hold := Config.find?_eq_some hof
  cases hnew : new.find? of.name with
  | none =>
    exact .inl (List.mem_append_left _ ((hplan.removedFlows _).mpr ⟨hnew, .inl (by simp [hold])⟩))
  | some nf =>
    obtain ⟨hnf, hname⟩ := Config.mem_of_find? hnew
    rw [← hname] at hrec
    obtain ⟨hurl, href⟩ | ⟨hlive, hurl⟩ := hmoves of hof nf hnf hname (by simp [hrec])
    · exact .inr ⟨nf, hnf, hname, by rwa [← hurl, ← href]⟩
    · rw [hname] at hlive
      exact .inl (List.mem_append_right _
        ((hplan.urlResets _).mpr ⟨hlive, of, nf, hold, hnew, hurl⟩))

end Explained

/-- What is still to be spawned belongs to the configuration, which the reload
pushed before it began to spawn. -/
def Pc.Within (config : Config) : Pc → Prop
  | .booting rest => ∀ flow ∈ rest, flow ∈ config.flow
  | .spawning reload rest => config = reload.newConfig ∧ ∀ flow ∈ rest, flow ∈ config.flow
  | _ => True

def Event.loads : Event → Option Config
  | .reload (.ok new) => some new
  | _ => none

def Daemon.observer (d : Daemon) : Event → Option Task
  | .observe id (.pollObservation ..) => d.pollTask? id
  | _ => none

/-- A reload gives a flow with a recorded SHA another source only while the flow
is live, and then another url. A poll task records a SHA only while the flow's
source is the one it polls, or while the flow's removal is still to be sent. -/
def KeepsSources (initial : State) (d : Daemon) (e : Event) : Prop :=
  (∀ new ∈ e.loads, ∀ of ∈ d.config.flow, ∀ nf ∈ new.flow, nf.name = of.name →
    (recordedSha (initial.applyAll d.sent) nf.name).isSome →
      SameSource of nf ∨ (d.runtime.handles[nf.name]?).isSome ∧ of.source.url ≠ nf.source.url) ∧
  (∀ t ∈ d.observer e, t.flow ∈ d.pc.pending ∨
    ∃ flow ∈ (d.pc.target d.config).flow, flow.name = t.flow ∧ SameSource flow t.config)

instance decidableKeepsSources (initial : State) (d : Daemon) (e : Event) :
    Decidable (KeepsSources initial d e) :=
  inferInstanceAs (Decidable ((∀ new ∈ e.loads, _) ∧ ∀ t ∈ d.observer e, _))

section Change

variable {crates : Crates} {d : Daemon} {e : Event} {r : Runtime} {pc : Pc} {config : Config}

theorem Change.within (h : Change crates d e r pc config) (hd : d.pc.Within d.config) :
    pc.Within config := by
  cases h with
  | frame | finish => exact hd
  | exit | release | respawn | reload | drainJoin | drained | timedOut | emitted | bootDone
  | reloadDone => trivial
  | pushed => exact ⟨rfl, fun _ h => h⟩
  | bootSpawn _ _ hpc | bootSkip hpc =>
    rw [hpc] at hd
    exact fun flow hflow => hd flow (List.mem_cons_of_mem _ hflow)
  | reloadSpawn _ _ hpc | reloadFailed hpc | reloadSkip hpc =>
    rw [hpc] at hd
    exact ⟨hd.1, fun flow hflow => hd.2 flow (List.mem_cons_of_mem _ hflow)⟩

theorem Change.target_eq (h : Change crates d e r pc config) (hd : d.pc.Within d.config)
    (hemit : e ≠ .emit) (hload : e.loads = none) :
    pc.pending = d.pc.pending ∧ pc.target config = d.pc.target d.config := by
  cases h with
  | frame | finish => exact ⟨rfl, rfl⟩
  | exit hpc | release _ hpc | respawn _ _ hpc | drainJoin hpc | drained hpc | timedOut hpc
  | pushed hpc | bootSpawn _ _ hpc | bootSkip hpc | reloadSpawn _ _ hpc | reloadFailed hpc
  | reloadSkip hpc | bootDone hpc =>
    rw [hpc]
    exact ⟨rfl, rfl⟩
  | reload => cases hload
  | emitted => exact absurd rfl hemit
  | reloadDone hpc =>
    rw [hpc] at hd ⊢
    exact ⟨rfl, hd.1⟩

theorem Change.same_target (h : Change crates d e r pc config) (hd : d.pc.Within d.config)
    (hload : e.loads = none) : pc.target config = d.pc.target d.config := by
  rcases eq_or_ne e .emit with rfl | hemit
  · cases h with
    | frame he => exact absurd rfl he
    | emitted hpc =>
      rw [hpc]
      rfl
  · exact (h.target_eq hd hemit hload).2

theorem Daemon.spawns_mem {flow : FlowConfig} (h : d.spawns e = some flow)
    (hd : d.pc.Within d.config) :
    flow ∈ (d.pc.target d.config).flow ∧ d.pc.pending = [] := by
  cases SpawnSite.of_spawns h with
  | boot hpc =>
    rw [hpc] at hd ⊢
    exact ⟨hd _ List.mem_cons_self, rfl⟩
  | reload hpc =>
    rw [hpc] at hd ⊢
    exact ⟨hd.1 ▸ hd.2 _ List.mem_cons_self, rfl⟩
  | respawn hpc _ _ _ hfind =>
    rw [hpc]
    exact ⟨(Config.mem_of_find? hfind).1, rfl⟩

end Change

/-- All that is recorded, once everything sent is applied, is explained. -/
structure Sources (initial : State) (d : Daemon) : Prop where
  explained : Explained initial d.sent d.observed d.pc.pending (d.pc.target d.config)
  within : d.pc.Within d.config

namespace Sources

variable {initial : State} {crates : Crates} {d d' : Daemon} {e : Event}

theorem step (h : Sources initial d) (hkeeps : KeepsSources initial d e)
    (hstep : d.step crates e = some d') : Sources initial d' := by
  have htraffic := Daemon.step_traffic hstep
  have hchange := Daemon.step_change hstep
  refine ⟨?_, hchange.within h.within⟩
  have hexplained := h.explained
  have hsent : d'.sent = d'.stream.sent := rfl
  have hobserved : d'.observed = d'.stream.observed := rfl
  rw [hsent, hobserved]
  generalize d'.stream = s, d'.runtime = r, d'.pc = pc, d'.config = config at htraffic hchange ⊢
  -- what was sent decides the case; only for a load does the change matter as well
  cases htraffic with
  | still hemit =>
    cases hload : e.loads with
    | none =>
      obtain ⟨hpending, htarget⟩ := hchange.target_eq h.within hemit hload
      rw [hpending, htarget]
      exact hexplained
    | some new =>
      cases hchange with
      | frame => exact hexplained
      | @reload newConfig deadline hpc =>
        rw [hpc] at hexplained
        exact hexplained.reload (planned ..) (hkeeps.1 newConfig rfl)
      | _ => cases hload
  | @observe id t u queue ht hflow hu hqueue =>
    obtain ⟨hpending, htarget⟩ := hchange.target_eq h.within nofun rfl
    rw [hpending, htarget]
    cases u with
    | pollObservation flow sha at_ dispatched cooldown =>
      obtain rfl : flow = t.flow := hflow
      exact hexplained.observation (hkeeps.2 t ht) sha at_ dispatched cooldown
    | pollTimestamp flow at_ =>
      simpa [Daemon.observations] using
        hexplained.unrelated (u := .pollTimestamp flow at_) fun _ => ⟨rfl, nofun⟩
    | _ => cases hu
  | @run u queue hu hqueue =>
    obtain ⟨hpending, htarget⟩ := hchange.target_eq h.within nofun rfl
    rw [hpending, htarget]
    apply hexplained.unrelated
    intro f
    cases u with
    | runStarted | runFinished => exact ⟨rfl, nofun⟩
    | _ => cases hu
  | removed hpc hqueue =>
    rw [hpc] at hexplained
    cases hchange with
    | frame hemit => exact absurd rfl hemit
    | emitted hpc' =>
      cases hpc.symm.trans hpc'
      exact hexplained.removed
  | receive | write =>
    obtain ⟨hpending, htarget⟩ := hchange.target_eq h.within nofun rfl
    rw [hpending, htarget]
    exact hexplained

theorem boot {config : Config} {disk : Option State} {now : DateTime} {observed : List Observation}
    (h : ∀ f sha, recordedSha (Writer.loadOrInit disk) f = some sha →
      Sourced config observed f sha) :
    Sources (Writer.loadOrInit disk) (Supervisor.boot config disk now observed) where
  explained f sha hrec := .inr (h f sha hrec)
  within _ hflow := hflow

theorem seeded (h : Sources initial d) (hfresh : Fresh d.runtime)
    (hunpoisoned : d.writer.mirror.poisoned = false)
    (hsettled : d.writer.mirror.value = initial.applyAll d.sent)
    (hstep : d.step crates e = some d') {t : Task} (ht : t ∈ d'.runtime.joinSet)
    (hnew : t.token = d.runtime.nextToken) {sha : ObjectId} (hsha : t.initialLastSha = some sha) :
    ⟨t.flow, t.config.source.url, t.config.source.refName, sha⟩ ∈ d.observed := by
  obtain ⟨hspawns, hseed⟩ := hfresh.spawned (Daemon.step_change hstep) ht hnew
  obtain ⟨hmem, hpending⟩ := Daemon.spawns_mem hspawns h.within
  rw [hsha, readPersistedLastSha_eq hunpoisoned, hsettled] at hseed
  have hexplained := h.explained _ sha hseed.symm
  rw [hpending] at hexplained
  obtain ⟨flow, hflow, hname, hobserved⟩ := hexplained.resolve_left List.not_mem_nil
  rw [Config.eq_of_name_eq hflow hmem hname] at hobserved
  exact hobserved

end Sources

/-- If the SHAs of the state file were observed at the sources the flows boot
with, then in every run that keeps recorded SHAs and sources together, a poll
task spawned while the mirror reflects all that was sent is seeded with nothing or
with a SHA observed before at the url and the ref it polls. -/
theorem seed_is_of_own_source (crates : Crates) (config : Config) (disk : Option State)
    (now : DateTime) (observed : List Observation) (events : List Event) (e : Event)
    (d d' : Daemon)
    (hboot : ∀ f sha, recordedSha (Writer.loadOrInit disk) f = some sha →
      Sourced config observed f sha)
    (hrun : Transition.run (Daemon.step crates) (boot config disk now observed) events = some d)
    (hkeeps : Transition.Along (Daemon.step crates) (KeepsSources (Writer.loadOrInit disk))
      (boot config disk now observed) events)
    (hsettled : d.writer.mirror.value = (Writer.loadOrInit disk).applyAll d.sent)
    (hstep : d.step crates e = some d') :
    ∀ t ∈ d'.runtime.joinSet, t.token = d.runtime.nextToken → ∀ sha, t.initialLastSha = some sha →
      ⟨t.flow, t.config.source.url, t.config.source.refName, sha⟩ ∈ d.observed := by
  have hsources := Transition.invariant_along (I := Sources (Writer.loadOrInit disk))
    (fun _ _ _ h hkeeps hstep => h.step hkeeps hstep) (.boot hboot) hkeeps hrun
  intro t ht hnew sha hsha
  exact hsources.seeded (.run crates hrun) (Delivers.run crates hrun).mirror.unpoisoned hsettled hstep
    ht hnew hsha

/-- A flow whose head was recorded is disabled by one reload and started again, with
the given source, by the next, up to the spawn. -/
def reenabled (flow : FlowConfig) : List Event :=
  recordedHead ++
  [.reload (.ok (oneFlow { kernelFlow "linux" "linux.git" "refs/heads/master" with enabled := false })),
    .finish (0, .poll) .returned, .finish (0, .dispatcher) .returned, .drainJoin (0, .poll),
    .drainJoin (0, .dispatcher), .drainDone, .pushConfig, .spawnNext .ready, .finalize,
    .reload (.ok (oneFlow flow)), .drainDone, .pushConfig]

theorem reenabled_flow_seeded_with_own_sha :
    ∃ d d', Transition.run (Daemon.step kernelCrates)
        (boot (oneFlow (kernelFlow "linux" "linux.git" "refs/heads/master")) none 0 [])
        (reenabled (kernelFlow "linux" "linux.git" "refs/heads/master")) = some d ∧
      d.step kernelCrates (.spawnNext .ready) = some d' ∧
      (∃ t ∈ d'.runtime.joinSet, t.token = d.runtime.nextToken ∧
        t.initialLastSha = some (.repeated 10)) ∧
      ∀ t ∈ d'.runtime.joinSet, t.token = d.runtime.nextToken → ∀ sha, t.initialLastSha = some sha →
        ⟨t.flow, t.config.source.url, t.config.source.refName, sha⟩ ∈ d.observed := by
  obtain ⟨d, hrun, hmirror, d', hspawn, hseed⟩ :
      ∃ d ∈ Transition.run (Daemon.step kernelCrates)
        (boot (oneFlow (kernelFlow "linux" "linux.git" "refs/heads/master")) none 0 [])
        (reenabled (kernelFlow "linux" "linux.git" "refs/heads/master")),
        d.writer.mirror.value = (Writer.loadOrInit none).applyAll d.sent ∧
        ∃ d' ∈ d.step kernelCrates (.spawnNext .ready),
          ∃ t ∈ d'.runtime.joinSet, t.token = d.runtime.nextToken ∧
            t.initialLastSha = some (.repeated 10) := by
    decide +kernel
  have hown := seed_is_of_own_source kernelCrates
    (oneFlow (kernelFlow "linux" "linux.git" "refs/heads/master")) none 0 []
    (reenabled (kernelFlow "linux" "linux.git" "refs/heads/master")) (.spawnNext .ready) d d'
    (fun f sha hrec => by simp [recordedSha, Writer.loadOrInit, State.default] at hrec)
    hrun (by decide +kernel) hmirror hspawn
  exact ⟨d, d', hrun, hspawn, hseed, hown⟩

/-- Started again on another tree, it is seeded with the head of the first: the
flow was not live when its url changed, so no removal was sent. -/
theorem reenabled_flow_seeded_with_foreign_sha :
    ∃ d d', Transition.run (Daemon.step kernelCrates)
        (boot (oneFlow (kernelFlow "linux" "linux.git" "refs/heads/master")) none 0 [])
        (reenabled (kernelFlow "linux" "stable.git" "refs/heads/master")) = some d ∧
      d.writer.mirror.value = (Writer.loadOrInit none).applyAll d.sent ∧
      d.step kernelCrates (.spawnNext .ready) = some d' ∧
      ∃ t ∈ d'.runtime.joinSet, t.token = d.runtime.nextToken ∧
        t.config = kernelFlow "linux" "stable.git" "refs/heads/master" ∧
        t.initialLastSha = some (.repeated 10) ∧
        ⟨t.flow, t.config.source.url, t.config.source.refName, .repeated 10⟩ ∉ d.observed := by
  obtain ⟨d, hrun, hmirror, d', hspawn, hseed⟩ :
      ∃ d ∈ Transition.run (Daemon.step kernelCrates)
        (boot (oneFlow (kernelFlow "linux" "linux.git" "refs/heads/master")) none 0 [])
        (reenabled (kernelFlow "linux" "stable.git" "refs/heads/master")),
        d.writer.mirror.value = (Writer.loadOrInit none).applyAll d.sent ∧
        ∃ d' ∈ d.step kernelCrates (.spawnNext .ready),
          ∃ t ∈ d'.runtime.joinSet, t.token = d.runtime.nextToken ∧
            t.config = kernelFlow "linux" "stable.git" "refs/heads/master" ∧
            t.initialLastSha = some (.repeated 10) ∧
            ⟨t.flow, t.config.source.url, t.config.source.refName, .repeated 10⟩ ∉ d.observed := by
    decide +kernel
  exact ⟨d, d', hrun, hmirror, hspawn, hseed⟩

end Gcit.Supervisor
