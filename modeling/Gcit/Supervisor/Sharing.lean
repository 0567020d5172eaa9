import Gcit.Supervisor.Credentials
import Gcit.Supervisor.Effective

/-! # Flows of one credential share one entry

The supervisor with its credential pool. Whether a flow can be set up, which the
supervisor's events leave open, is decided here by the pool and by what the process
finds around it; what the tasks of a generation were given is remembered under its
token. A reload keeps the entries that the kept flows name, and these are the only
flows with a handle until new generations are spawned.
-/

namespace Gcit.Supervisor

open Std Gcit Gcit.Git Gcit.Poll Gcit.Library Gcit.Library.OrderedMap

structure Generation where
  config : FlowConfig
  resources : GithubCredentialResources

structure PooledDaemon where
  daemon : Daemon
  pool : CredentialPool
  generations : ExtTreeMap Token Generation

inductive PooledEvent where
  | daemon (e : Event)
  | spawnNext (env : Environment)
  | respawn (env : Environment)

/-- `spawn_flow` up to where it starts the tasks. -/
def setUpFlow (pool : CredentialPool) (env : Environment) (flow : FlowConfig) :
    Except Setup GithubCredentialResources × CredentialPool :=
  match buildNotifiers pool env flow.destination with
  | (.error err, pool) => (.error (.notifierFailed err), pool)
  | (.ok (), pool) =>
    let (resources, pool) := pool.acquireGithub env flow.action.credentialId
    (resources.mapError .credentialFailed, pool)

namespace PooledDaemon

variable (crates : Crates)

def boot (config : Config) (disk : Option State) (now : DateTime) (observed : List Observation)
    (configDir : Option String) : PooledDaemon :=
  ⟨Supervisor.boot config disk now observed, .empty configDir, ∅⟩

/-- `invalidate_stale_credentials`, which only a reload that loaded its file reaches. -/
def invalidateStaleCredentials (p : PooledDaemon) : Event → CredentialPool
  | .reload (.ok newConfig) =>
    let actions := computeReloadActions crates p.daemon.config newConfig p.daemon.runtime.handles
    let plan := (applyActionsToRegistry actions p.daemon.runtime).2
    p.pool.invalidateExcept (collectKeptCredentials newConfig plan.toKeep)
  | _ => p.pool

def spawnFlow (p : PooledDaemon) (event : Setup → Event) (env : Environment) :
    Option PooledDaemon :=
  match p.daemon.spawns (event .ready) with
  | none => (p.daemon.step crates (event .ready)).map fun d => { p with daemon := d }
  | some flow => match setUpFlow p.pool env flow with
    | (.error setup, pool) =>
      (p.daemon.step crates (event setup)).map fun d => { p with daemon := d, pool := pool }
    | (.ok resources, pool) => (p.daemon.step crates (event .ready)).map fun d =>
      { daemon := d
        pool := pool
        generations := p.generations.insert p.daemon.runtime.nextToken ⟨flow, resources⟩ }

def step (p : PooledDaemon) : PooledEvent → Option PooledDaemon
  | .daemon (.spawnNext _) | .daemon (.respawn _) => none
  | .daemon e => (p.daemon.step crates e).map fun d =>
    { p with daemon := d, pool := p.invalidateStaleCredentials crates e }
  | .spawnNext env => p.spawnFlow crates .spawnNext env
  | .respawn env => p.spawnFlow crates .respawn env

end PooledDaemon

/-- Every registered flow was given the pool's entry for the credential that the
configuration names for its action. -/
def Given (config : Config) (r : Runtime) (pool : CredentialPool)
    (generations : ExtTreeMap Token Generation) : Prop :=
  ∀ (f : String) (h : FlowHandle), r.handles[f]? = some h → ∃ flow g, config.find? f = some flow ∧
    generations[h.cancel]? = some g ∧ g.config.name = f ∧
    g.config.action.credentialId = flow.action.credentialId ∧
    pool.byId[flow.action.credentialId]? = some g.resources

theorem setUpFlow_cases (pool : CredentialPool) (env : Environment) (flow : FlowConfig) :
    ∃ m, pool.SameEntries m ∧ ((setUpFlow pool env flow).2 = m ∨
      (setUpFlow pool env flow).2 = (m.acquireGithub env flow.action.credentialId).2) := by
  have hsame := buildNotifiers_sameEntries pool env flow.destination
  unfold setUpFlow
  split
  · next m hm =>
    rw [hm] at hsame
    exact ⟨m, hsame, .inl rfl⟩
  · next m hm =>
    rw [hm] at hsame
    exact ⟨m, hsame, .inr rfl⟩

theorem setUpFlow_sound {pool : CredentialPool} (h : pool.Sound) (env : Environment)
    (flow : FlowConfig) : (setUpFlow pool env flow).2.Sound := by
  obtain ⟨m, hsame, heq | heq⟩ := setUpFlow_cases pool env flow
  · exact heq ▸ h.same hsame
  · exact heq ▸ (h.same hsame).acquireGithub

theorem setUpFlow_lookup {pool : CredentialPool} {id : CredentialId}
    {r : GithubCredentialResources} (h : pool.byId[id]? = some r) (env : Environment)
    (flow : FlowConfig) : (setUpFlow pool env flow).2.byId[id]? = some r := by
  obtain ⟨m, hsame, heq | heq⟩ := setUpFlow_cases pool env flow
  · rwa [heq, hsame.byId]
  · rw [heq]
    exact CredentialPool.lookup_acquireGithub (hsame.byId ▸ h)

theorem setUpFlow_follows (pool : CredentialPool) (env : Environment) (flow : FlowConfig) :
    pool.Follows (setUpFlow pool env flow).2 := by
  obtain ⟨m, hsame, heq | heq⟩ := setUpFlow_cases pool env flow
  · exact heq ▸ hsame.follows
  · exact heq ▸ hsame.follows.trans .acquireGithub

theorem setUpFlow_ok {pool : CredentialPool} {env : Environment} {flow : FlowConfig}
    {r : GithubCredentialResources} (h : (setUpFlow pool env flow).1 = .ok r) :
    (setUpFlow pool env flow).2.byId[flow.action.credentialId]? = some r := by
  unfold setUpFlow at h ⊢
  split at h
  · cases h
  · next m hm =>
    apply CredentialPool.acquireGithub_ok
    cases hacquired : (m.acquireGithub env flow.action.credentialId).1 with
    | error err => simp [hacquired, Except.mapError] at h
    | ok r' => simpa [hacquired, Except.mapError] using h

theorem setUpFlow_error {pool : CredentialPool} {env : Environment} {flow : FlowConfig}
    {setup : Setup} (h : (setUpFlow pool env flow).1 = .error setup) : setup ≠ .ready := by
  unfold setUpFlow at h
  split at h
  · cases h
    exact nofun
  · next m hm =>
    cases hacquired : (m.acquireGithub env flow.action.credentialId).1 with
    | error err =>
      simp only [hacquired, Except.mapError] at h
      cases h
      exact nofun
    | ok r => simp [hacquired, Except.mapError] at h

namespace Given

variable {config : Config} {r r' : Runtime} {pool pool' : CredentialPool}
  {generations : ExtTreeMap Token Generation}

theorem retain (h : Given config r pool generations) (hr : r.Retains r')
    (hpool : ∀ (id : CredentialId) x, pool.byId[id]? = some x → pool'.byId[id]? = some x) :
    Given config r' pool' generations := by
  intro f x hx
  obtain ⟨flow, g, hfind, hg, hname, hcredential, hentry⟩ := h f x (hr.handles f x hx)
  exact ⟨flow, g, hfind, hg, hname, hcredential, hpool _ _ hentry⟩

theorem addPair (h : Given config r pool generations) (hr : Fresh r) {flow : FlowConfig}
    (hflow : flow ∈ config.flow) {resources : GithubCredentialResources}
    (hresources : pool.byId[flow.action.credentialId]? = some resources)
    (effective : EffectivePoll) (sha : Option ObjectId) (at_ : Option DateTime) :
    Given config (r.addPair flow effective sha at_) pool
      (generations.insert r.nextToken ⟨flow, resources⟩) := by
  intro f x hx
  rw [Runtime.lookup_addPair_handles] at hx
  split at hx
  · next hname =>
    cases hx
    refine ⟨flow, ⟨flow, resources⟩, hname ▸ Config.find?_eq_some hflow, ?_, hname, rfl,
      hresources⟩
    rw [lookup_insert, if_pos rfl]
  · obtain ⟨flow', g, hfind, hg, hname, hcredential, hentry⟩ := h f x hx
    refine ⟨flow', g, hfind, ?_, hname, hcredential, hentry⟩
    rw [lookup_insert, if_neg (Nat.ne_of_gt (hr.handles f x hx)), hg]

/-- The kept flows are in the new configuration with the same action, so that the
entries they hold are among those it keeps. -/
theorem reload {crates : Crates} {old new : Config} {plan : ReloadPlan}
    (h : Given old r pool generations) (hplan : Planned crates old new r r' plan) :
    Given new r' (pool.invalidateExcept (collectKeptCredentials new plan.toKeep)) generations := by
  intro f x hx
  obtain ⟨hold, hkeep⟩ := (hplan.handles f x).mp hx
  obtain ⟨-, of, nf, hof, hnf, -, hunchanged⟩ := (hplan.toKeep f).mp hkeep
  obtain ⟨flow, g, hfind, hg, hname, hcredential, hentry⟩ := h f x hold
  obtain rfl : of = flow := Option.some.inj (hof.symm.trans hfind)
  obtain ⟨hmem, hnfname⟩ := Config.mem_of_find? hnf
  have hsame := congrArg ActionConfig.credentialId (action_eq_of_unchanged hunchanged)
  have hkept := mem_collectKeptCredentials hmem (hnfname ▸ hkeep)
  refine ⟨nf, g, hnf, hg, hname, hcredential.trans hsame, ?_⟩
  exact CredentialPool.lookup_invalidateExcept.mpr ⟨hsame ▸ hentry, hkept⟩

end Given

/-- The registered flows were given what the pool holds for them now, judged by the
configuration in force or by the one a reload is about to put in force. -/
structure Sharing (p : PooledDaemon) : Prop where
  fresh : Fresh p.daemon.runtime
  within : p.daemon.pc.Within p.daemon.config
  sound : p.pool.Sound
  given : Given (p.daemon.pc.target p.daemon.config) p.daemon.runtime p.pool p.generations

namespace Sharing

variable {crates : Crates} {p p' : PooledDaemon}

theorem boot (config : Config) (disk : Option State) (now : DateTime)
    (observed : List Observation) (configDir : Option String) :
    Sharing (.boot config disk now observed configDir) where
  fresh := .empty
  within := fun _ h => h
  sound := CredentialPool.sound_empty configDir
  given f h hf := by simp [PooledDaemon.boot, Supervisor.boot, Runtime.empty] at hf

theorem quiet (h : Sharing p) {e : Event} {d : Daemon} (hstep : p.daemon.step crates e = some d)
    (hload : e.loads = none) (hspawns : p.daemon.spawns e = none) {pool : CredentialPool}
    (hsound : pool.Sound)
    (hpool : ∀ (id : CredentialId) x, p.pool.byId[id]? = some x → pool.byId[id]? = some x) :
    Sharing { p with daemon := d, pool := pool } := by
  have hchange := Daemon.step_change hstep
  refine ⟨h.fresh.change hchange, hchange.within h.within, hsound, ?_⟩
  rw [hchange.same_target h.within hload]
  refine h.given.retain (hchange.retains_or_spawns.resolve_right ?_) hpool
  rw [hspawns]
  exact nofun

theorem spawned (h : Sharing p) {e : Event} {d : Daemon} (hstep : p.daemon.step crates e = some d)
    {flow : FlowConfig} (hspawns : p.daemon.spawns e = some flow) {pool : CredentialPool}
    (hsound : pool.Sound)
    (hpool : ∀ (id : CredentialId) x, p.pool.byId[id]? = some x → pool.byId[id]? = some x)
    {resources : GithubCredentialResources}
    (hresources : pool.byId[flow.action.credentialId]? = some resources) :
    Sharing ⟨d, pool, p.generations.insert p.daemon.runtime.nextToken ⟨flow, resources⟩⟩ := by
  have hchange := Daemon.step_change hstep
  refine ⟨h.fresh.change hchange, hchange.within h.within, hsound, ?_⟩
  rw [hchange.same_target h.within (Daemon.loads_of_spawns hspawns)]
  obtain ⟨m, sha, at_, hm, hruntime⟩ := Daemon.step_spawns hstep hspawns
  obtain ⟨hmem, -⟩ := Daemon.spawns_mem hspawns h.within
  rw [hruntime]
  rcases hm with rfl | rfl
  · exact (h.given.retain (.refl _) hpool).addPair h.fresh hmem hresources _ sha at_
  · have hfresh := h.fresh.shrink (Runtime.releaseRespawn_shrinks flow.name)
    exact (h.given.retain (.release flow.name) hpool).addPair hfresh hmem hresources _ sha at_

theorem spawnFlow (h : Sharing p) {event : Setup → Event} {env : Environment}
    (hload : ∀ setup, (event setup).loads = none)
    (hready : ∀ setup, setup ≠ .ready → p.daemon.spawns (event setup) = none)
    (hstep : p.spawnFlow crates event env = some p') : Sharing p' := by
  unfold PooledDaemon.spawnFlow at hstep
  split at hstep
  · next hspawns =>
    obtain ⟨d, hd, rfl⟩ := Option.map_eq_some_iff.mp hstep
    exact h.quiet hd (hload _) hspawns h.sound fun _ _ hx => hx
  · next flow hspawns =>
    have hsound := setUpFlow_sound h.sound env flow
    have hlookup : ∀ (id : CredentialId) x, p.pool.byId[id]? = some x →
        (setUpFlow p.pool env flow).2.byId[id]? = some x :=
      fun _ _ hx => setUpFlow_lookup hx env flow
    split at hstep
    · next setup pool hsetup =>
      obtain ⟨d, hd, rfl⟩ := Option.map_eq_some_iff.mp hstep
      rw [hsetup] at hsound hlookup
      have hne : setup ≠ .ready := setUpFlow_error (by rw [hsetup])
      exact h.quiet hd (hload _) (hready _ hne) hsound hlookup
    · next resources pool hsetup =>
      obtain ⟨d, hd, rfl⟩ := Option.map_eq_some_iff.mp hstep
      have hready : (setUpFlow p.pool env flow).1 = .ok resources := by rw [hsetup]
      have hresources := setUpFlow_ok hready
      rw [hsetup] at hsound hlookup hresources
      exact h.spawned hd hspawns hsound hlookup hresources

theorem daemon (h : Sharing p) {e : Event} {d : Daemon} (hspawns : p.daemon.spawns e = none)
    (hstep : p.daemon.step crates e = some d) :
    Sharing { p with daemon := d, pool := p.invalidateStaleCredentials crates e } := by
  cases hload : e.loads with
  | none =>
    have hpool : p.invalidateStaleCredentials crates e = p.pool := by
      unfold PooledDaemon.invalidateStaleCredentials
      split
      · cases hload
      · rfl
    rw [hpool]
    exact h.quiet hstep hload hspawns h.sound fun _ _ hx => hx
  | some new =>
    obtain rfl : e = .reload (.ok new) := by
      unfold Event.loads at hload
      split at hload
      · cases hload
        rfl
      · cases hload
    have hchange := Daemon.step_change hstep
    refine ⟨h.fresh.change hchange, hchange.within h.within, h.sound.invalidateExcept, ?_⟩
    have hgiven := h.given
    simp only [Daemon.step] at hstep
    split at hstep
    · next hpc =>
      cases hstep
      rw [hpc] at hgiven
      exact hgiven.reload (planned ..)
    · cases hstep

theorem step (h : Sharing p) {e : PooledEvent} (hstep : p.step crates e = some p') :
    Sharing p' := by
  unfold PooledDaemon.step at hstep
  split at hstep
  · cases hstep
  · cases hstep
  · next e hnext hrespawn =>
    obtain ⟨d, hd, rfl⟩ := Option.map_eq_some_iff.mp hstep
    refine h.daemon ?_ hd
    unfold Daemon.spawns
    split
    · exact absurd rfl (hnext _)
    · exact absurd rfl (hrespawn _)
    · rfl
  · refine h.spawnFlow (fun _ => rfl) (fun setup hne => ?_) hstep
    cases setup with
    | ready => exact absurd rfl hne
    | _ => rfl
  · refine h.spawnFlow (fun _ => rfl) (fun setup hne => ?_) hstep
    cases setup with
    | ready => exact absurd rfl hne
    | _ => rfl

end Sharing

theorem PooledDaemon.step_follows {crates : Crates} {p p' : PooledDaemon} {e : PooledEvent}
    (hstep : p.step crates e = some p') : p.pool.Follows p'.pool := by
  have hspawn : ∀ event env, p.spawnFlow crates event env = some p' →
      p.pool.Follows p'.pool := by
    intro event env h
    unfold spawnFlow at h
    split at h
    · obtain ⟨d, -, rfl⟩ := Option.map_eq_some_iff.mp h
      exact .refl _
    · next flow _ =>
      have hfollows := setUpFlow_follows p.pool env flow
      split at h
      · next hsetup =>
        obtain ⟨d, -, rfl⟩ := Option.map_eq_some_iff.mp h
        rw [hsetup] at hfollows
        exact hfollows
      · next hsetup =>
        obtain ⟨d, -, rfl⟩ := Option.map_eq_some_iff.mp h
        rw [hsetup] at hfollows
        exact hfollows
  unfold step at hstep
  split at hstep
  · cases hstep
  · cases hstep
  · obtain ⟨d, -, rfl⟩ := Option.map_eq_some_iff.mp hstep
    change p.pool.Follows (p.invalidateStaleCredentials crates _)
    unfold invalidateStaleCredentials
    split
    · exact .invalidateExcept
    · exact .refl _
  · exact hspawn _ _ hstep
  · exact hspawn _ _ hstep

theorem PooledDaemon.run_follows {crates : Crates} {p p' : PooledDaemon} {events : List PooledEvent}
    (hrun : Transition.run (step crates) p events = some p') : p.pool.Follows p'.pool :=
  Transition.invariant_run (I := fun q => p.pool.Follows q.pool)
    (fun _ _ _ h hstep => h.trans (step_follows hstep)) (.refl _) hrun

/-- What the flows with a handle were given, by the action credential they were
spawned with. -/
structure SharesCredentials (p : PooledDaemon) : Prop where
  given : ∀ (f : String) (h : FlowHandle), p.daemon.runtime.handles[f]? = some h →
    ∃ flow g, (p.daemon.pc.target p.daemon.config).find? f = some flow ∧
      p.generations[h.cancel]? = some g ∧ g.config.name = f ∧
      g.config.action.credentialId = flow.action.credentialId
  same : ∀ (f f' : String) (h h' : FlowHandle) g g',
    p.daemon.runtime.handles[f]? = some h → p.daemon.runtime.handles[f']? = some h' →
    p.generations[h.cancel]? = some g → p.generations[h'.cancel]? = some g' →
    g.config.action.credentialId = g'.config.action.credentialId → g.resources = g'.resources
  current : ∀ (f : String) (h : FlowHandle) g, p.daemon.runtime.handles[f]? = some h →
    p.generations[h.cancel]? = some g →
    p.pool.byId[g.config.action.credentialId]? = some g.resources ∧
      g.resources.serial ∉ p.pool.cancelledPollers

theorem Sharing.sharesCredentials {p : PooledDaemon} (hp : Sharing p) : SharesCredentials p := by
  have hentry : ∀ (f : String) (h : FlowHandle) g, p.daemon.runtime.handles[f]? = some h →
      p.generations[h.cancel]? = some g →
      p.pool.byId[g.config.action.credentialId]? = some g.resources := by
    intro f h g hf hg
    obtain ⟨flow, g', -, hg', -, hcredential, hentry⟩ := hp.given f h hf
    obtain rfl : g = g' := Option.some.inj (hg.symm.trans hg')
    rw [hcredential, hentry]
  refine ⟨?_, ?_, ?_⟩
  · intro f h hf
    obtain ⟨flow, g, hfind, hg, hname, hcredential, -⟩ := hp.given f h hf
    exact ⟨flow, g, hfind, hg, hname, hcredential⟩
  · intro f f' h h' g g' hf hf' hg hg' hcredential
    have h1 := hentry f h g hf hg
    rw [hcredential, hentry f' h' g' hf' hg'] at h1
    exact (Option.some.inj h1).symm
  · intro f h g hf hg
    exact ⟨hentry f h g hf hg, (hp.sound.running _ _ (hentry f h g hf hg)).2⟩

/-- In every state the daemon can reach from a boot, registered flows of one action
credential hold one entry, the one the pool has for it, with its poller running; and
what is no longer in the pool since an earlier state has its poller cancelled. -/
theorem flows_share_credentials (crates : Crates) (config : Config) (disk : Option State)
    (now : DateTime) (observed : List Observation) (configDir : Option String)
    (pre post : List PooledEvent) (q p : PooledDaemon)
    (hpre : Transition.run (PooledDaemon.step crates) (.boot config disk now observed configDir) pre =
      some q)
    (hpost : Transition.run (PooledDaemon.step crates) q post = some p) :
    SharesCredentials p ∧
      (∀ (id : CredentialId) r, q.pool.byId[id]? = some r →
        p.pool.byId[id]? = some r ∨ r.serial ∈ p.pool.cancelledPollers) := by
  have hstep : ∀ s e t, Sharing s → s.step crates e = some t → Sharing t :=
    fun _ _ _ h hs => h.step hs
  have hq := Transition.invariant_run hstep (.boot config disk now observed configDir) hpre
  exact ⟨(Transition.invariant_run hstep hq hpost).sharesCredentials,
    (PooledDaemon.run_follows hpost).entries⟩

def oneSecret : Environment where
  credentialsDirectory := none
  var name := if name = "GCIT_CREDENTIAL_GITHUB" then some "token" else none
  file _ := ⟨.notPresent, .error ""⟩
  githubClient _ _ := .ok ()
  parseWebhookUrl _ := .error ""
  discordClient := .ok ()

def linuxAndStable (stableRef : String) : Config where
  poll := {}
  flow := [kernelFlow "linux" "linux.git" "refs/heads/master",
    kernelFlow "stable" "stable.git" stableRef]
  distinct := show ["linux", "stable"].Nodup by decide

/-- The reload restarts one of two flows of a credential: it gets the entry that the
other one has kept. -/
theorem restarted_flow_shares :
    ∃ q p, Transition.run (PooledDaemon.step kernelCrates)
        (.boot (linuxAndStable "refs/heads/master") none 0 [] none)
        [.spawnNext oneSecret, .spawnNext oneSecret, .daemon .finalize] = some q ∧
      Transition.run (PooledDaemon.step kernelCrates) q
        [.daemon (.reload (.ok (linuxAndStable "refs/heads/linux-6.6.y"))),
          .daemon (.tick DRAIN_TIMEOUT), .daemon .drainTimeout, .daemon .pushConfig,
          .spawnNext oneSecret, .spawnNext oneSecret, .daemon .finalize] = some p ∧
      (p.daemon.runtime.handles.toList = [("linux", ⟨0⟩), ("stable", ⟨2⟩)]) ∧
      SharesCredentials p ∧
      ∀ (id : CredentialId) r, q.pool.byId[id]? = some r →
        p.pool.byId[id]? = some r ∨ r.serial ∈ p.pool.cancelledPollers := by
  refine ⟨_, _, (Option.some_get (by decide +kernel)).symm,
    (Option.some_get (by decide +kernel)).symm, by decide +kernel, ?_⟩
  exact flows_share_credentials kernelCrates _ none 0 [] none _ _ _ _ (Option.some_get _).symm
    (Option.some_get _).symm

end Gcit.Supervisor
