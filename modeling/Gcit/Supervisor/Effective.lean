import Gcit.Supervisor.Sources

/-! # Effective poll settings across a reload

A generation is started with the poll settings of the configuration in force. A
reload keeps a generation when the flow's own table is unchanged; the global
`[poll]` defaults the flow falls back to are not part of that comparison.
-/

namespace Gcit.Supervisor

open Std Gcit Gcit.Git Gcit.Poll Gcit.Library Gcit.Library.OrderedMap

variable (crates : Crates)

def strategyOf (flow : FlowConfig) : PollStrategy := autoDetect crates.toUrlCrates flow.source.url

def effectiveOf (config : Config) (flow : FlowConfig) : EffectivePoll :=
  effectivePoll config.poll flow.poll (strategyOf crates flow)

def SameDefaults (old new : PollDefaults) (override_ : PollOverride) (strategy : PollStrategy) :
    Prop :=
  (override_.sourceInterval = none → old.sourceInterval.getD (defaultInterval strategy) =
    new.sourceInterval.getD (defaultInterval strategy)) ∧
  (override_.jobInterval = none → old.jobInterval = new.jobInterval) ∧
  (override_.jitter = none → old.jitter = new.jitter) ∧
  (override_.cooldown = none → old.cooldown = new.cooldown)

instance decidableSameDefaults (old new : PollDefaults) (override_ : PollOverride)
    (strategy : PollStrategy) : Decidable (SameDefaults old new override_ strategy) :=
  inferInstanceAs (Decidable (_ ∧ _))

/-- No live flow that stays enabled and unchanged relies on a default that changes. -/
def DefaultsKept (old new : Config) (handles : ExtTreeMap String FlowHandle) : Prop :=
  ∀ of ∈ old.flow, ∀ nf ∈ new.flow, nf.name = of.name → (handles[nf.name]?).isSome →
    nf.enabled → flowConfigUnchanged crates of nf →
      SameDefaults old.poll new.poll nf.poll (strategyOf crates nf)

instance decidableDefaultsKept (old new : Config) (handles : ExtTreeMap String FlowHandle) :
    Decidable (DefaultsKept crates old new handles) :=
  inferInstanceAs (Decidable (∀ of ∈ old.flow, ∀ nf ∈ new.flow, _))

/-- A flow is kept only if its settings are the same under both configurations. -/
def KeepsSettings (old new : Config) (handles : ExtTreeMap String FlowHandle) : Prop :=
  ∀ name, .keep name ∈ computeReloadActions crates old new handles →
    ∀ of nf, old.find? name = some of → new.find? name = some nf →
      effectiveOf crates old of = effectiveOf crates new nf

variable {crates}

theorem effectivePoll_eq_iff {old new : PollDefaults} {override_ : PollOverride}
    {strategy : PollStrategy} :
    effectivePoll old override_ strategy = effectivePoll new override_ strategy ↔
      SameDefaults old new override_ strategy := by
  obtain ⟨source, job, jitter, cooldown⟩ := override_
  simp only [effectivePoll, EffectivePoll.mk.injEq, SameDefaults]
  refine and_congr ?_ (and_congr ?_ (and_congr ?_ ?_))
  · cases source <;> simp
  · cases job <;> simp
  · cases jitter <;> simp
  · cases cooldown <;> simp

theorem effectiveOf_eq_iff {old new : Config} {of nf : FlowConfig}
    (h : flowConfigUnchanged crates of nf = true) :
    effectiveOf crates old of = effectiveOf crates new nf ↔
      SameDefaults old.poll new.poll nf.poll (strategyOf crates nf) := by
  have hsource : strategyOf crates of = strategyOf crates nf := by
    rw [strategyOf, source_eq_of_unchanged h, strategyOf]
  rw [effectiveOf, effectiveOf, poll_eq_of_unchanged h, hsource, effectivePoll_eq_iff]

theorem keepsSettings_iff (old new : Config) (handles : ExtTreeMap String FlowHandle) :
    KeepsSettings crates old new handles ↔ DefaultsKept crates old new handles := by
  constructor
  · intro h of hof nf hnf hname hlive henabled hunchanged
    have hold : old.find? nf.name = some of := hname ▸ Config.find?_eq_some hof
    have hnew := Config.find?_eq_some hnf
    have hkeep := keep_mem_iff.mpr ⟨hlive, of, nf, hold, hnew, henabled, hunchanged⟩
    exact (effectiveOf_eq_iff hunchanged).mp (h nf.name hkeep of nf hold hnew)
  · intro h name hkeep of nf hof hnf
    obtain ⟨hlive, of', nf', hof', hnf', henabled, hunchanged⟩ := keep_mem_iff.mp hkeep
    obtain rfl : of = of' := Option.some.inj (hof.symm.trans hof')
    obtain rfl : nf = nf' := Option.some.inj (hnf.symm.trans hnf')
    obtain ⟨hmem, hname⟩ := Config.mem_of_find? hof
    obtain ⟨hmem', hname'⟩ := Config.mem_of_find? hnf
    rw [← hname'] at hlive
    exact (effectiveOf_eq_iff hunchanged).mpr
      (h of hmem nf hmem' (hname'.trans hname.symm) hlive henabled hunchanged)

/-- Every registered flow runs with the settings the configuration gives it. -/
def Runs (crates : Crates) (config : Config) (r : Runtime) : Prop :=
  ∀ (f : String) (h : FlowHandle), r.handles[f]? = some h → ∃ flow, config.find? f = some flow ∧
    ∀ t ∈ r.joinSet, t.token = h.cancel → t.effective = effectiveOf crates config flow

/-- `r'` has no handle and no task settings that `r` does not have. -/
structure Runtime.Retains (r r' : Runtime) : Prop where
  handles : ∀ (f : String) (h : FlowHandle), r'.handles[f]? = some h → r.handles[f]? = some h
  tasks : ∀ t ∈ r'.joinSet, ∃ u ∈ r.joinSet, u.token = t.token ∧ u.effective = t.effective

namespace Runtime.Retains

variable {r r' : Runtime}

theorem of_subset (hhandles : ∀ (f : String) (h : FlowHandle), r'.handles[f]? = some h →
    r.handles[f]? = some h) (htasks : r'.joinSet ⊆ r.joinSet) : Retains r r' :=
  ⟨hhandles, fun t ht => ⟨t, htasks ht, rfl, rfl⟩⟩

theorem refl (r : Runtime) : Retains r r := .of_subset (fun _ _ h => h) (List.Subset.refl _)

theorem trans {r'' : Runtime} (h : Retains r r') (h' : Retains r' r'') : Retains r r'' where
  handles f x hx := h.handles f x (h'.handles f x hx)
  tasks t ht := by
    obtain ⟨u, hu, htoken, heff⟩ := h'.tasks t ht
    obtain ⟨v, hv, htoken', heff'⟩ := h.tasks u hu
    exact ⟨v, hv, htoken'.trans htoken, heff'.trans heff⟩

theorem finish {id : Token × FlowRole} {e : TaskEnd} (h : r.finish id e = some r') :
    Retains r r' := by
  obtain ⟨g, rfl, hg⟩ := Runtime.finish_eq_some h
  refine ⟨fun _ _ h => h, ?_⟩
  intro t ht
  obtain ⟨u, hu, rfl⟩ := List.mem_map.mp ht
  rcases hg u with heq | ⟨-, heq⟩
  · exact ⟨u, hu, by rw [heq], by rw [heq]⟩
  · exact ⟨u, hu, by rw [heq], by rw [heq]⟩

theorem joinNext {id : Token × FlowRole} {t : Task} {j : Except JoinError FlowExit}
    (h : r.joinNext? id = some (t, j, r')) : Retains r r' := by
  obtain ⟨-, -, rfl⟩ := Runtime.joinNext?_eq_some h
  exact .of_subset (fun _ _ h => h) List.erase_subset

theorem exit {t : Task} {j : Except JoinError FlowExit} (h : t.joined = some j) :
    Retains r (r.handleFlowExit j).1 := by
  refine ⟨(Runtime.handleFlowExit_shrinks h).handles, ?_⟩
  have hjoin : (r.handleFlowExit j).1.joinSet = r.joinSet := by
    obtain ⟨e, -, heq⟩ | ⟨-, heq⟩ | ⟨m, -, -, heq⟩ | ⟨m, -, -, heq⟩ :=
      Runtime.handleFlowExit_cases (r := r) h <;> rw [heq]
    · exact Runtime.noteExit_joinSet t.flow
    · exact Runtime.noteExit_joinSet t.flow
    · rw [Runtime.startRespawn_joinSet, Runtime.noteExit_joinSet]
  intro u hu
  exact ⟨u, hjoin ▸ hu, rfl, rfl⟩

theorem release (flow : String) : Retains r (r.releaseRespawn flow) :=
  .of_subset (fun _ _ h => h) (List.Subset.refl _)

theorem planned {old new : Config} {plan : ReloadPlan} (h : Planned crates old new r r' plan) :
    Retains r r' :=
  .of_subset (fun f x hx => ((h.handles f x).mp hx).1) (h.joinSet ▸ List.Subset.refl _)

end Runtime.Retains

theorem Runs.retain {config : Config} {r r' : Runtime} (h : Runs crates config r)
    (hr : r.Retains r') : Runs crates config r' := by
  intro f x hx
  obtain ⟨flow, hfind, htasks⟩ := h f x (hr.handles f x hx)
  refine ⟨flow, hfind, ?_⟩
  intro t ht htoken
  obtain ⟨u, hu, hsame, heff⟩ := hr.tasks t ht
  exact heff ▸ htasks u hu (hsame.trans htoken)

theorem Runs.addPair {config : Config} {r : Runtime} {flow : FlowConfig}
    (h : Runs crates config r) (hr : Fresh r) (hflow : flow ∈ config.flow)
    (sha : Option ObjectId) (at_ : Option DateTime) :
    Runs crates config (r.addPair flow (effectiveOf crates config flow) sha at_) := by
  intro f x hx
  rw [Runtime.lookup_addPair_handles] at hx
  split at hx
  · next hname =>
    cases hx
    refine ⟨flow, hname ▸ Config.find?_eq_some hflow, ?_⟩
    intro t ht htoken
    rcases Runtime.mem_addPair.mp ht with hold | ⟨role, rfl⟩
    · exact absurd htoken (Nat.ne_of_lt (hr.tasks t hold))
    · rfl
  · obtain ⟨g, hfind, htasks⟩ := h f x hx
    refine ⟨g, hfind, ?_⟩
    intro t ht htoken
    rcases Runtime.mem_addPair.mp ht with hold | ⟨role, rfl⟩
    · exact htasks t hold htoken
    · exact absurd htoken.symm (Nat.ne_of_lt (hr.handles f x hx))

theorem Runs.reload {old new : Config} {r r' : Runtime} {plan : ReloadPlan}
    (h : Runs crates old r) (hplan : Planned crates old new r r' plan)
    (hkept : DefaultsKept crates old new r.handles) : Runs crates new r' := by
  intro f x hx
  obtain ⟨hold, hkeep⟩ := (hplan.handles f x).mp hx
  obtain ⟨hlive, of, nf, hof, hnf, henabled, hunchanged⟩ := (hplan.toKeep f).mp hkeep
  obtain ⟨flow, hfind, htasks⟩ := h f x hold
  obtain rfl : of = flow := Option.some.inj (hof.symm.trans hfind)
  have hsettings := (keepsSettings_iff old new r.handles).mpr hkept f
    (keep_mem_iff.mpr ⟨hlive, of, nf, hof, hnf, henabled, hunchanged⟩) of nf hof hnf
  refine ⟨nf, hnf, ?_⟩
  intro t ht htoken
  rw [htasks t (hplan.joinSet ▸ ht) htoken, hsettings]

section Step

variable {d d' : Daemon} {e : Event} {flow : FlowConfig}

theorem Daemon.target_of_spawns (h : d.spawns e = some flow) (hd : d.pc.Within d.config) :
    d.pc.target d.config = d.config := by
  cases SpawnSite.of_spawns h with
  | boot hpc | respawn hpc =>
    rw [hpc]
    rfl
  | reload hpc =>
    rw [hpc] at hd ⊢
    exact hd.1.symm

theorem Daemon.loads_of_spawns (h : d.spawns e = some flow) : e.loads = none := by
  cases SpawnSite.of_spawns h <;> rfl

theorem Daemon.handleRespawnRequest_spawns {req : RespawnRequest}
    (hgate : ¬ (d.runtime.pendingExits.contains req.flow ∧ req.attempts < RESPAWN_MAX_ATTEMPTS))
    (hfree : ¬ d.runtime.handles.contains req.flow) (hfind : d.config.find? req.flow = some flow)
    (henabled : flow.enabled) :
    (d.handleRespawnRequest crates req .ready).runtime =
      (d.runtime.releaseRespawn req.flow).addPair flow (effectiveOf crates d.config flow)
        (readPersistedLastSha d.writer.mirror flow.name)
        (readPersistedLastDispatchedAt d.writer.mirror flow.name) := by
  have hfree' : ¬ (d.releaseRespawn req.flow).runtime.handles.contains req.flow = true := hfree
  have hfind' : (d.releaseRespawn req.flow).config.find? req.flow = some flow := hfind
  simp only [handleRespawnRequest, if_neg hgate, if_neg hfree', hfind', if_pos henabled]
  rfl

theorem Daemon.step_spawns (hstep : d.step crates e = some d') (h : d.spawns e = some flow) :
    ∃ m sha at_, (m = d.runtime ∨ m = d.runtime.releaseRespawn flow.name) ∧
      d'.runtime = m.addPair flow (effectiveOf crates d.config flow) sha at_ := by
  cases SpawnSite.of_spawns h with
  | boot hpc henabled =>
    simp only [step, hpc, if_pos henabled, Option.some.injEq] at hstep
    subst hstep
    exact ⟨_, _, _, .inl rfl, rfl⟩
  | reload hpc hspawn =>
    simp only [step, hpc, spawnNewGeneration, if_neg hspawn, Option.some.injEq] at hstep
    subst hstep
    exact ⟨_, _, _, .inr rfl, rfl⟩
  | respawn hpc hreq hgate hfree hfind henabled =>
    obtain ⟨-, hname⟩ := Config.mem_of_find? hfind
    simp only [step, hpc, hreq, Option.map_some, Option.some.injEq] at hstep
    rw [← hstep, hname]
    exact ⟨_, _, _, .inr rfl, handleRespawnRequest_spawns hgate hfree hfind henabled⟩

theorem Change.retains_or_spawns {r : Runtime} {pc : Pc} {config : Config}
    (h : Change crates d e r pc config) : d.runtime.Retains r ∨ ∃ flow, d.spawns e = some flow := by
  cases h with
  | frame | drained | timedOut | emitted | pushed | bootSkip | reloadSkip | bootDone | reloadDone =>
    exact .inl (.refl _)
  | finish h => exact .inl (.finish h)
  | exit hpc h =>
    exact .inl ((Runtime.Retains.joinNext h).trans (.exit (Runtime.joinNext?_eq_some h).2.1))
  | release flow | reloadFailed => exact .inl (.release _)
  | reload => exact .inl (.planned (Gcit.Supervisor.planned ..))
  | drainJoin hpc h => exact .inl (.joinNext h)
  | respawn effective at_ hpc hreq hmem hfree hspawns => exact .inr ⟨_, hspawns⟩
  | reloadSpawn effective at_ hpc hkeep hspawns => exact .inr ⟨_, hspawns⟩
  | bootSpawn effective at_ hpc hspawns => exact .inr ⟨_, hspawns⟩

/-- No reload changes a default that a flow it keeps relies on. -/
def ReloadsKeepDefaults (crates : Crates) (d : Daemon) (e : Event) : Prop :=
  ∀ new ∈ e.loads, DefaultsKept crates d.config new d.runtime.handles

instance decidableReloadsKeepDefaults (crates : Crates) (d : Daemon) (e : Event) :
    Decidable (ReloadsKeepDefaults crates d e) :=
  inferInstanceAs (Decidable (∀ new ∈ e.loads, _))

/-- The registered flows run with the settings of the configuration in force, or
of the one a reload is about to put in force. -/
structure InEffect (crates : Crates) (d : Daemon) : Prop where
  fresh : Fresh d.runtime
  within : d.pc.Within d.config
  runs : Runs crates (d.pc.target d.config) d.runtime

theorem InEffect.boot (config : Config) (disk : Option State) (now : DateTime)
    (observed : List Observation) : InEffect crates (boot config disk now observed) where
  fresh := .empty
  within := fun _ h => h
  runs f h hf := by simp [Supervisor.boot, Runtime.empty] at hf

theorem InEffect.step (h : InEffect crates d) (hkept : ReloadsKeepDefaults crates d e)
    (hstep : d.step crates e = some d') : InEffect crates d' := by
  have hchange := Daemon.step_change hstep
  refine ⟨h.fresh.change hchange, hchange.within h.within, ?_⟩
  by_cases hspawns : ∃ flow, d.spawns e = some flow
  · obtain ⟨flow, hspawns⟩ := hspawns
    obtain ⟨m, sha, at_, hm, hruntime⟩ := Daemon.step_spawns hstep hspawns
    have hretains : d.runtime.Retains m := by
      rcases hm with rfl | rfl
      · exact .refl _
      · exact .release flow.name
    have hfresh : Fresh m := by
      rcases hm with rfl | rfl
      · exact h.fresh
      · exact h.fresh.shrink (Runtime.releaseRespawn_shrinks flow.name)
    obtain ⟨hmem, -⟩ := Daemon.spawns_mem hspawns h.within
    have htarget : d'.pc.target d'.config = d.config := by
      rw [hchange.same_target h.within (Daemon.loads_of_spawns hspawns),
        Daemon.target_of_spawns hspawns h.within]
    have hruns := h.runs
    rw [Daemon.target_of_spawns hspawns h.within] at hruns hmem
    rw [htarget, hruntime]
    exact (hruns.retain hretains).addPair hfresh hmem sha at_
  · have hretains := hchange.retains_or_spawns.resolve_right hspawns
    have hruns := h.runs
    generalize d'.runtime = r, d'.pc = pc, d'.config = config at hchange hretains ⊢
    cases hload : e.loads with
    | some new =>
      cases hchange with
      | frame => exact hruns
      | @reload newConfig deadline hpc =>
        rw [hpc] at hruns
        exact hruns.reload (planned ..) (hkept newConfig rfl)
      | _ => cases hload
    | none =>
      rw [hchange.same_target h.within hload]
      exact hruns.retain hretains

end Step

/-- For every pair of configurations and every registry, a reload keeps only flows
whose settings do not change if and only if no such flow relies on a default that
changes; and in every run whose reloads all meet this, each registered flow runs
with the settings the configuration in force gives it whenever the supervisor is
back in its select loop. -/
theorem reload_settings_in_effect (crates : Crates) :
    (∀ old new handles,
      KeepsSettings crates old new handles ↔ DefaultsKept crates old new handles) ∧
    ∀ (config : Config) (disk : Option State) (now : DateTime) (observed : List Observation)
      (events : List Event) (d : Daemon),
      Transition.run (Daemon.step crates) (boot config disk now observed) events = some d →
      Transition.Along (Daemon.step crates) (ReloadsKeepDefaults crates)
        (boot config disk now observed) events →
      d.pc = .select → Runs crates d.config d.runtime := by
  refine ⟨fun old new handles => keepsSettings_iff old new handles, ?_⟩
  intro config disk now observed events d hrun hkept hpc
  have hinv := Transition.invariant_along (fun _ _ _ h hc hs => InEffect.step h hc hs)
    (InEffect.boot config disk now observed) hkept hrun
  have hruns := hinv.runs
  rw [hpc] at hruns
  exact hruns

def linuxWith (poll : PollDefaults) (override_ : PollOverride) : Config :=
  ⟨poll, [{ kernelFlow "linux" "linux.git" "refs/heads/master" with poll := override_ }],
    List.nodup_singleton _⟩

def reloadDefaults (new : Config) : List Event :=
  [.spawnNext .ready, .finalize, .reload (.ok new), .drainDone, .pushConfig, .spawnNext .ready,
    .finalize]

theorem overridden_default_reloads :
    ∃ d, Transition.run (Daemon.step kernelCrates)
        (boot (linuxWith {} { cooldown := some (seconds 60) }) none 0 [])
        (reloadDefaults (linuxWith { cooldown := seconds 600 } { cooldown := some (seconds 60) })) =
          some d ∧
      d.pc = .select ∧ d.config.poll.cooldown = seconds 600 ∧ Runs kernelCrates d.config d.runtime := by
  refine ⟨_, (Option.some_get (by decide +kernel)).symm, by decide +kernel, by decide +kernel, ?_⟩
  exact (reload_settings_in_effect kernelCrates).2 _ none 0 [] _ _ (Option.some_get _).symm
    (by decide +kernel) (by decide +kernel)

/-- The cooldown of `[poll]` goes from five to ten minutes and the flow has none of
its own: the reload keeps the flow, which goes on with five. -/
theorem changed_default_is_ignored :
    .keep "linux" ∈ computeReloadActions kernelCrates (linuxWith {} {})
        (linuxWith { cooldown := seconds 600 } {}) ((∅ : ExtTreeMap String FlowHandle).insert "linux" ⟨0⟩) ∧
      ¬ KeepsSettings kernelCrates (linuxWith {} {}) (linuxWith { cooldown := seconds 600 } {})
        ((∅ : ExtTreeMap String FlowHandle).insert "linux" ⟨0⟩) ∧
      ∃ d, Transition.run (Daemon.step kernelCrates) (boot (linuxWith {} {}) none 0 [])
          (reloadDefaults (linuxWith { cooldown := seconds 600 } {})) = some d ∧
        d.pc = .select ∧ d.config.poll.cooldown = seconds 600 ∧
        d.runtime.joinSet.map (fun t => t.effective.cooldown) = [seconds 300, seconds 300] := by
  refine ⟨by decide +kernel, ?_, _, (Option.some_get (by decide +kernel)).symm, by decide +kernel,
    by decide +kernel, by decide +kernel⟩
  rw [keepsSettings_iff]
  decide +kernel

end Gcit.Supervisor
