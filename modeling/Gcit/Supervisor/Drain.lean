import Gcit.Supervisor.Tokens

/-! # What a reload leaves running

The drain stops when no more tasks are left than the kept flows have. That is the
right moment as long as both tasks of every registered generation are in the join
set, which holds while no exit of such a task is joined without its handle being
dropped: by the drain, or by the select loop for an exit without a name.
-/

namespace Gcit.Supervisor

open Std Gcit Gcit.Git Gcit.Poll Gcit.Library Gcit.Library.OrderedMap

/-- No exit of a registered generation is joined unseen. -/
def SeesExits (d : Daemon) (e : Event) : Prop :=
  ∀ t ∈ d.runtime.joinSet, d.runtime.handles[t.flow]? = some ⟨t.token⟩ →
    e.drains ≠ some t.id ∧ (e.joins = some t.id → t.named = true)

instance decidableSeesExits (d : Daemon) (e : Event) : Decidable (SeesExits d e) :=
  inferInstanceAs (Decidable (∀ t ∈ d.runtime.joinSet, _ → _ ∧ _))

/-- Every registered generation has both of its tasks in the join set and was not
cancelled; a flow waiting for its respawn is not registered. -/
structure Paired (r : Runtime) : Prop where
  fresh : Fresh r
  tasks : ∀ (f : String) (h : FlowHandle), r.handles[f]? = some h → ∀ role,
    ∃ t ∈ r.joinSet, t.id = (h.cancel, role) ∧ t.flow = f
  active : ∀ (f : String) (h : FlowHandle), r.handles[f]? = some h → h.cancel ∉ r.cancelled
  waiting : ∀ f ∈ r.respawningFlows, r.handles[f]? = none

namespace Paired

variable {r r' : Runtime}

theorem empty : Paired .empty where
  fresh := .empty
  tasks f h hf := by simp [Runtime.empty] at hf
  active f h hf := by simp [Runtime.empty] at hf
  waiting f hf := by simp [Runtime.empty] at hf

theorem flow_eq (hr : Paired r) {f : String} {h : FlowHandle} (hf : r.handles[f]? = some h)
    {t : Task} (ht : t ∈ r.joinSet) (htoken : t.token = h.cancel) : t.flow = f := by
  obtain ⟨u, hu, hid, rfl⟩ := hr.tasks f h hf t.role
  have heq : t.id = u.id := hid.symm ▸ Prod.ext htoken rfl
  exact congrArg Task.flow (hr.fresh.eq_of_id_eq ht hu heq)

theorem handle_inj (hr : Paired r) {f g : String} {x y : FlowHandle} (hx : r.handles[f]? = some x)
    (hy : r.handles[g]? = some y) (heq : x.cancel = y.cancel) : f = g := by
  obtain ⟨t, ht, hid, rfl⟩ := hr.tasks f x hx .poll
  exact hr.flow_eq hy ht ((congrArg Prod.fst hid).trans heq)

theorem finish (hr : Paired r) {id : Token × FlowRole} {e : TaskEnd} (h : r.finish id e = some r') :
    Paired r' := by
  have hfresh := hr.fresh.shrink (Runtime.finish_shrinks h)
  obtain ⟨g, rfl, hg⟩ := Runtime.finish_eq_some h
  refine ⟨hfresh, fun f x hx role => ?_, hr.active, hr.waiting⟩
  obtain ⟨t, ht, hid, hflow⟩ := hr.tasks f x hx role
  refine ⟨g t, List.mem_map_of_mem ht, ?_⟩
  obtain h | ⟨-, h⟩ := hg t
  · rw [h]
    exact ⟨hid, hflow⟩
  · rw [h]
    exact ⟨hid, hflow⟩

theorem releaseRespawn (hr : Paired r) (flow : String) : Paired (r.releaseRespawn flow) where
  fresh := hr.fresh.shrink (Runtime.releaseRespawn_shrinks flow)
  tasks := hr.tasks
  active := hr.active
  waiting f hf := hr.waiting f (ExtTreeSet.mem_of_mem_erase hf)

theorem not_mem_releaseRespawn (flow : String) : flow ∉ (r.releaseRespawn flow).respawningFlows := by
  simp [Runtime.releaseRespawn]

theorem addPair (hr : Paired r) {flow : FlowConfig} (hflow : flow.name ∉ r.respawningFlows)
    (effective : EffectivePoll) (sha : Option ObjectId) (at_ : Option DateTime) :
    Paired (r.addPair flow effective sha at_) where
  fresh := hr.fresh.addPair flow effective sha at_
  tasks f x hx role := by
    rw [Runtime.lookup_addPair_handles] at hx
    split at hx
    · next hname =>
      cases hx
      exact ⟨_, Runtime.mem_addPair.mpr (.inr ⟨role, rfl⟩), rfl, hname⟩
    · obtain ⟨t, ht, hid, hflow⟩ := hr.tasks f x hx role
      exact ⟨t, Runtime.mem_addPair.mpr (.inl ht), hid, hflow⟩
  active f x hx := by
    rw [Runtime.lookup_addPair_handles] at hx
    split at hx
    · cases hx
      exact fun hmem => Nat.lt_irrefl _ (hr.fresh.cancelled _ hmem)
    · exact hr.active f x hx
  waiting f hf := by
    rw [Runtime.lookup_addPair_handles, if_neg]
    · exact hr.waiting f hf
    · rintro rfl
      exact hflow hf

theorem reload (hr : Paired r) {crates : Crates} {old new : Config} {plan : ReloadPlan}
    (hplan : Planned crates old new r r' plan) : Paired r' where
  fresh := hr.fresh.shrink hplan.shrinks
  tasks f x hx role := hplan.joinSet ▸ hr.tasks f x ((hplan.handles f x).mp hx).1 role
  active f x hx hmem := by
    obtain ⟨hx, hkeep⟩ := (hplan.handles f x).mp hx
    obtain hmem | ⟨g, y, hy, heq, hnot⟩ := (hplan.cancelled _).mp hmem
    · exact hr.active f x hx hmem
    · exact hnot (hr.handle_inj hy hx heq ▸ hkeep)
  waiting f hf := by
    cases hx : r'.handles[f]? with
    | none => rfl
    | some x =>
      have hold := ((hplan.handles f x).mp hx).1
      rw [hr.waiting f (hplan.respawning f hf)] at hold
      cases hold

theorem of_eq (hr : Paired r) (hfresh : Fresh r') (htasks : r'.joinSet = r.joinSet)
    (hhandles : ∀ f : String, r'.handles[f]? = r.handles[f]?)
    (hcancelled : ∀ k, k ∈ r'.cancelled ↔ k ∈ r.cancelled)
    (hwaiting : ∀ f, f ∈ r'.respawningFlows → f ∈ r.respawningFlows) : Paired r' where
  fresh := hfresh
  tasks f x hx := htasks ▸ hr.tasks f x (hhandles f ▸ hx)
  active f x hx hmem := hr.active f x (hhandles f ▸ hx) ((hcancelled _).mp hmem)
  waiting f hf := hhandles f ▸ hr.waiting f (hwaiting f hf)

theorem erase (hr : Paired r) {t : Task} (ht : t ∈ r.joinSet)
    (hne : r.handles[t.flow]? ≠ some ⟨t.token⟩) :
    Paired { r with joinSet := r.joinSet.erase t } where
  fresh := ⟨fun u hu => hr.fresh.tasks u (List.mem_of_mem_erase hu), hr.fresh.handles,
    hr.fresh.cancelled, (List.erase_sublist.map _).nodup hr.fresh.ids⟩
  tasks f x hx role := by
    obtain ⟨u, hu, hid, hflow⟩ := hr.tasks f x hx role
    have hut : u ≠ t := by
      rintro rfl
      have htoken : x.cancel = u.token := (congrArg Prod.fst hid).symm
      rw [hflow, hx, ← htoken] at hne
      exact hne rfl
    exact ⟨u, (List.mem_erase_of_ne hut).mpr hu, hid, hflow⟩
  active := hr.active
  waiting := hr.waiting

theorem dropHandle (hr : Paired r) (flow : String) : Paired (r.dropHandle flow) := by
  have hold : ∀ (f : String) (x : FlowHandle),
      (r.dropHandle flow).handles[f]? = some x → r.handles[f]? = some x := by
    intro f x hx
    rw [Runtime.dropHandle, lookup_erase] at hx
    split at hx
    · cases hx
    · exact hx
  refine ⟨⟨hr.fresh.tasks, fun f x hx => hr.fresh.handles f x (hold f x hx), hr.fresh.cancelled,
    hr.fresh.ids⟩, fun f x hx => hr.tasks f x (hold f x hx),
    fun f x hx => hr.active f x (hold f x hx), fun f hf => ?_⟩
  rw [Runtime.dropHandle, lookup_erase, hr.waiting f hf, ite_self]

theorem startRespawn (hr : Paired r) (flow : String) : Paired (r.startRespawn flow) := by
  have hold : ∀ (f : String) (x : FlowHandle),
      (r.startRespawn flow).handles[f]? = some x → flow ≠ f ∧ r.handles[f]? = some x := by
    intro f x hx
    rw [Runtime.lookup_startRespawn] at hx
    split at hx
    · cases hx
    · next hne => exact ⟨hne, hx⟩
  refine ⟨⟨?_, ?_, ?_, ?_⟩, ?_, ?_, ?_⟩
  · simpa using hr.fresh.tasks
  · intro f x hx
    simpa using hr.fresh.handles f x (hold f x hx).2
  · intro k hk
    rw [Runtime.startRespawn_nextToken]
    obtain hk | hk := Runtime.mem_startRespawn_cancelled.mp hk
    · exact hr.fresh.cancelled k hk
    · exact hr.fresh.handles flow _ hk
  · simpa using hr.fresh.ids
  · intro f x hx
    simpa using hr.tasks f x (hold f x hx).2
  · intro f x hx hmem
    obtain ⟨hne, hx⟩ := hold f x hx
    obtain hmem | hmem := Runtime.mem_startRespawn_cancelled.mp hmem
    · exact hr.active f x hx hmem
    · exact hne (hr.handle_inj hmem hx rfl)
  · intro f hf
    rw [Runtime.lookup_startRespawn]
    split
    · rfl
    · next hne =>
      rw [Runtime.startRespawn_respawningFlows, ExtTreeSet.mem_insert] at hf
      exact hr.waiting f (hf.resolve_left fun heq => hne (Std.compare_eq_iff_eq.mp heq))

theorem exit {d : Daemon} {id : Token × FlowRole} {t : Task} {j : Except JoinError FlowExit}
    (hr : Paired d.runtime) (hsees : SeesExits d (.joinNext id))
    (hjoin : d.runtime.joinNext? id = some (t, j, r)) : Paired (r.handleFlowExit j).1 := by
  have hfresh := hr.fresh.shrink (Runtime.joinNext?_shrinks hjoin)
  have hid := Runtime.joinNext?_id hjoin
  obtain ⟨ht, hj, rfl⟩ := Runtime.joinNext?_eq_some hjoin
  have hfresh := hfresh.shrink (Runtime.handleFlowExit_shrinks hj)
  obtain ⟨e, hend, heq⟩ | ⟨-, heq⟩ | ⟨m, -, hwait, heq⟩ | ⟨m, -, -, heq⟩ :=
    Runtime.handleFlowExit_cases (r := { d.runtime with joinSet := d.runtime.joinSet.erase t }) hj
  · rw [heq]
    apply hr.erase ht
    intro hown
    have hnamed := (hsees t ht hown).2 (congrArg some hid.symm)
    simp [Task.named, hend] at hnamed
  -- in the other cases the handle is dropped first, and then no generation misses the task
  · rw [heq] at hfresh ⊢
    have hdrop := (hr.dropHandle t.flow).erase ht (by simp [Runtime.dropHandle])
    refine hdrop.of_eq hfresh ?_ ?_ ?_ ?_ <;> simp [Runtime.dropHandle]
  · rw [heq] at hfresh ⊢
    have hdrop := hr.erase ht (by simp [hr.waiting t.flow hwait])
    refine hdrop.of_eq hfresh ?_ ?_ ?_ ?_ <;> simp
  · rw [heq] at hfresh ⊢
    have hdrop := (hr.startRespawn t.flow).erase (t := t) (by simpa using ht)
      (by simp [Runtime.lookup_startRespawn])
    refine hdrop.of_eq hfresh (by simp) (fun f => ?_) (fun k => ?_) (fun f hf => by simpa using hf)
    · simp only [Runtime.lookup_startRespawn, Runtime.noteExit_handles]
    · simp only [Runtime.mem_startRespawn_cancelled, Runtime.noteExit_handles,
        Runtime.noteExit_cancelled]

def keptIds (r : Runtime) (flows : List String) : List (Token × FlowRole) :=
  flows.flatMap fun f => (r.handles[f]?).toList.flatMap fun h =>
    [(h.cancel, .poll), (h.cancel, .dispatcher)]

theorem mem_keptIds {flows : List String} {id : Token × FlowRole} :
    id ∈ keptIds r flows ↔ ∃ f ∈ flows, r.handles[f]? = some ⟨id.1⟩ := by
  obtain ⟨token, role⟩ := id
  simp only [keptIds, List.mem_flatMap, Option.mem_toList, List.mem_cons, List.not_mem_nil,
    or_false, Prod.mk.injEq]
  constructor
  · rintro ⟨f, hf, ⟨k⟩, hk, ⟨rfl, -⟩ | ⟨rfl, -⟩⟩
    · exact ⟨f, hf, hk⟩
    · exact ⟨f, hf, hk⟩
  · rintro ⟨f, hf, hk⟩
    refine ⟨f, hf, ⟨token⟩, hk, ?_⟩
    cases role
    · exact .inl ⟨rfl, rfl⟩
    · exact .inr ⟨rfl, rfl⟩

theorem length_keptIds {flows : List String} (h : ∀ f ∈ flows, (r.handles[f]?).isSome) :
    (keptIds r flows).length = flows.length * 2 := by
  induction flows with
  | nil => rfl
  | cons f flows ih =>
    obtain ⟨x, hx⟩ := Option.isSome_iff_exists.mp (h f List.mem_cons_self)
    have hrest := ih fun g hg => h g (List.mem_cons_of_mem f hg)
    have hcons : keptIds r (f :: flows) =
        [(x.cancel, .poll), (x.cancel, .dispatcher)] ++ keptIds r flows := by
      simp [keptIds, hx]
    rw [hcons, List.length_append, hrest, List.length_cons]
    simp only [List.length_cons, List.length_nil]
    omega

theorem nodup_keptIds (hr : Paired r) {flows : List String} (h : flows.Nodup) :
    (keptIds r flows).Nodup := by
  induction flows with
  | nil => exact List.nodup_nil
  | cons f flows ih =>
    obtain ⟨hf, hflows⟩ := List.nodup_cons.mp h
    have hcons : keptIds r (f :: flows) = keptIds r [f] ++ keptIds r flows := by simp [keptIds]
    rw [hcons]
    refine List.Nodup.append ?_ (ih hflows) ?_
    · cases hx : r.handles[f]? <;> simp [keptIds, hx]
    · intro id hid hrest
      obtain ⟨g, hg, hk⟩ := mem_keptIds.mp hid
      obtain ⟨g', hg', hk'⟩ := mem_keptIds.mp hrest
      rw [List.mem_singleton.mp hg] at hk
      exact hf (hr.handle_inj hk hk' rfl ▸ hg')

theorem active_of_length_le (hr : Paired r) {keep : ExtTreeSet String}
    (hkeep : ∀ f ∈ keep, (r.handles[f]?).isSome) (hlen : r.joinSet.length ≤ keep.size * 2) :
    ∀ t ∈ r.joinSet, t.token ∉ r.cancelled := by
  have hflows : ∀ f ∈ keep.toList, (r.handles[f]?).isSome :=
    fun f hf => hkeep f (ExtTreeSet.mem_toList.mp hf)
  have hsub : keptIds r keep.toList ⊆ r.joinSet.map Task.id := by
    rintro ⟨token, role⟩ hid
    obtain ⟨f, -, hf⟩ := mem_keptIds.mp hid
    obtain ⟨t, ht, htid, -⟩ := hr.tasks f _ hf role
    exact List.mem_map.mpr ⟨t, ht, htid⟩
  have hperm := (List.subperm_of_subset (hr.nodup_keptIds (nodup_toList keep)) hsub).perm_of_length_le (by
    rw [length_keptIds hflows, List.length_map, ExtTreeSet.length_toList]
    exact hlen)
  intro t ht
  obtain ⟨f, -, hf⟩ := mem_keptIds.mp (hperm.mem_iff.mpr (List.mem_map_of_mem ht))
  exact hr.active f _ hf

end Paired

def Reload.Keeps (reload : Reload) (r : Runtime) : Prop :=
  ∀ f ∈ reload.plan.toKeep, (r.handles[f]?).isSome

/-- Unless the drain timed out, no cancelled task is left. -/
def Reload.Quiet (reload : Reload) (r : Runtime) : Prop :=
  reload.timedOut = false → ∀ t ∈ r.joinSet, t.token ∉ r.cancelled

/-- What holds of the runtime in each phase of a reload. -/
def Phase (r : Runtime) : Pc → Prop
  | .booting _ => ∀ f, f ∉ r.respawningFlows
  | .select => True
  | .draining reload _ => reload.Keeps r
  | .emitting reload _ => reload.Keeps r ∧ reload.Quiet r
  | .spawning reload rest => reload.Keeps r ∧ reload.Quiet r ∧
    ∀ flow ∈ reload.newConfig.flow, flow.enabled = true →
      flow ∈ rest ∨ flow.name ∈ reload.failed ∨ (r.handles[flow.name]?).isSome

namespace Phase

variable {r r' : Runtime} {pc : Pc}

theorem mono (h : Phase r pc) (hhandles : r'.handles = r.handles)
    (hcancelled : r'.cancelled = r.cancelled)
    (htasks : ∀ t ∈ r'.joinSet, ∃ u ∈ r.joinSet, u.token = t.token)
    (hwaiting : ∀ f ∈ r'.respawningFlows, f ∈ r.respawningFlows) : Phase r' pc := by
  have hkeeps : ∀ reload : Reload, reload.Keeps r → reload.Keeps r' :=
    fun _ h f hf => hhandles ▸ h f hf
  have hquiet : ∀ reload : Reload, reload.Quiet r → reload.Quiet r' := by
    intro reload h hin t ht
    obtain ⟨u, hu, heq⟩ := htasks t ht
    rw [hcancelled, ← heq]
    exact h hin u hu
  match pc, h with
  | .booting _, h => exact fun f hf => h f (hwaiting f hf)
  | .select, _ => trivial
  | .draining reload _, h => exact hkeeps reload h
  | .emitting reload _, h => exact ⟨hkeeps reload h.1, hquiet reload h.2⟩
  | .spawning reload _, h =>
    refine ⟨hkeeps reload h.1, hquiet reload h.2.1, fun flow hflow henabled => ?_⟩
    rw [hhandles]
    exact h.2.2 flow hflow henabled

theorem finish (h : Phase r pc) {id : Token × FlowRole} {e : TaskEnd}
    (hr' : r.finish id e = some r') : Phase r' pc := by
  obtain ⟨g, rfl, hg⟩ := Runtime.finish_eq_some hr'
  refine h.mono rfl rfl (fun t ht => ?_) fun _ hf => hf
  obtain ⟨u, hu, rfl⟩ := List.mem_map.mp ht
  refine ⟨u, hu, ?_⟩
  obtain h | ⟨-, h⟩ := hg u
  · rw [h]
  · rw [h]

theorem isSome_addPair {flow : FlowConfig} {effective : EffectivePoll} {sha : Option ObjectId}
    {at_ : Option DateTime} {f : String} (h : (r.handles[f]?).isSome) :
    ((r.addPair flow effective sha at_).handles[f]?).isSome := by
  rw [Runtime.lookup_addPair_handles]
  split
  · rfl
  · exact h

theorem spawned {reload : Reload} {flow : FlowConfig} {rest : List FlowConfig} (hr : Fresh r)
    (h : Phase r (.spawning reload (flow :: rest))) (effective : EffectivePoll)
    (sha : Option ObjectId) (at_ : Option DateTime) :
    Phase (r.addPair flow effective sha at_) (.spawning reload rest) := by
  obtain ⟨hkeeps, hquiet, hflows⟩ := h
  refine ⟨fun f hf => isSome_addPair (hkeeps f hf), fun hin t ht => ?_, fun other hother hen => ?_⟩
  · obtain ht | ⟨role, rfl⟩ := Runtime.mem_addPair.mp ht
    · exact hquiet hin t ht
    · exact fun hmem => Nat.lt_irrefl _ (hr.cancelled _ hmem)
  · obtain hrest | hfailed | hsome := hflows other hother hen
    · obtain rfl | hrest := List.mem_cons.mp hrest
      · exact .inr (.inr (by simp))
      · exact .inl hrest
    · exact .inr (.inl hfailed)
    · exact .inr (.inr (isSome_addPair hsome))

theorem skipped {reload : Reload} {flow : FlowConfig} {rest : List FlowConfig}
    (h : Phase r (.spawning reload (flow :: rest)))
    (hskip : flow.enabled = false ∨ flow.name ∈ reload.plan.toKeep) :
    Phase r (.spawning reload rest) := by
  obtain ⟨hkeeps, hquiet, hflows⟩ := h
  refine ⟨hkeeps, hquiet, fun other hother hen => ?_⟩
  obtain hrest | hrest := hflows other hother hen
  · obtain rfl | hrest := List.mem_cons.mp hrest
    · obtain hdisabled | hkept := hskip
      · rw [hdisabled] at hen
        cases hen
      · exact .inr (.inr (hkeeps _ hkept))
    · exact .inl hrest
  · exact .inr hrest

theorem failed {reload : Reload} {flow : FlowConfig} {rest : List FlowConfig}
    (h : Phase r (.spawning reload (flow :: rest))) :
    Phase r (.spawning { reload with failed := reload.failed ++ [flow.name] } rest) := by
  obtain ⟨hkeeps, hquiet, hflows⟩ := h
  refine ⟨hkeeps, hquiet, fun other hother hen => ?_⟩
  obtain hrest | hfailed | hsome := hflows other hother hen
  · obtain rfl | hrest := List.mem_cons.mp hrest
    · exact .inr (.inl (by simp))
    · exact .inl hrest
  · exact .inr (.inl (List.mem_append_left _ hfailed))
  · exact .inr (.inr hsome)

end Phase

theorem Change.paired_phase {crates : Crates} {d : Daemon} {e : Event} {r : Runtime} {pc : Pc}
    {config : Config} (hr : Paired d.runtime) (hphase : Phase d.runtime d.pc)
    (hsees : SeesExits d e) (h : Change crates d e r pc config) : Paired r ∧ Phase r pc := by
  cases h with
  | frame => exact ⟨hr, hphase⟩
  | finish h => exact ⟨hr.finish h, hphase.finish h⟩
  | exit hpc h => exact ⟨hr.exit hsees h, trivial⟩
  | release flow hpc => exact ⟨hr.releaseRespawn flow, trivial⟩
  | respawn effective at_ hpc hreq hmem hfree hspawns =>
    exact ⟨(hr.releaseRespawn _).addPair (Paired.not_mem_releaseRespawn _) _ _ _, trivial⟩
  | @reload newConfig deadline hpc =>
    have hplan := planned crates d.config newConfig d.runtime
    refine ⟨hr.reload hplan, fun f hf => ?_⟩
    obtain ⟨x, hx⟩ := Option.isSome_iff_exists.mp ((hplan.toKeep f).mp hf).1
    rw [(hplan.handles f x).mpr ⟨hx, hf⟩]
    rfl
  | drainJoin hpc h =>
    rw [hpc] at hphase
    have hid := Runtime.joinNext?_id h
    obtain ⟨ht, -, rfl⟩ := Runtime.joinNext?_eq_some h
    exact ⟨hr.erase ht fun hown => (hsees _ ht hown).1 (congrArg some hid.symm), hphase⟩
  | drained hpc hlen =>
    rw [hpc] at hphase
    exact ⟨hr, hphase, fun _ => hr.active_of_length_le hphase hlen⟩
  | timedOut hpc =>
    rw [hpc] at hphase
    exact ⟨hr, hphase, nofun⟩
  | emitted hpc =>
    rw [hpc] at hphase
    exact ⟨hr, hphase⟩
  | pushed hpc =>
    rw [hpc] at hphase
    exact ⟨hr, hphase.1, hphase.2, fun flow hflow _ => .inl hflow⟩
  | bootSpawn effective at_ hpc hspawns =>
    rw [hpc] at hphase
    exact ⟨hr.addPair (hphase _) _ _ _, hphase⟩
  | bootSkip hpc =>
    rw [hpc] at hphase
    exact ⟨hr, hphase⟩
  | @reloadSpawn _ flow _ effective at_ hpc hkeep hspawns =>
    rw [hpc] at hphase
    have hrel := hr.releaseRespawn flow.name
    refine ⟨hrel.addPair (Paired.not_mem_releaseRespawn _) _ _ _, Phase.spawned hrel.fresh ?_ _ _ _⟩
    exact hphase.mono rfl rfl (fun t ht => ⟨t, ht, rfl⟩)
      fun f hf => ExtTreeSet.mem_of_mem_erase hf
  | reloadFailed hpc =>
    rw [hpc] at hphase
    refine ⟨hr.releaseRespawn _, Phase.failed (hphase.mono rfl rfl (fun t ht => ⟨t, ht, rfl⟩) ?_)⟩
    exact fun f hf => ExtTreeSet.mem_of_mem_erase hf
  | reloadSkip hpc hskip =>
    rw [hpc] at hphase
    exact ⟨hr, hphase.skipped hskip⟩
  | bootDone | reloadDone => exact ⟨hr, trivial⟩

def Runtime.BothRunning (r : Runtime) (f : String) : Prop :=
  ∃ t ∈ r.joinSet, ∃ u ∈ r.joinSet, t.flow = f ∧ u.flow = f ∧ t.role = .poll ∧
    u.role = .dispatcher ∧ u.token = t.token ∧ r.Live t ∧ r.Live u

def Daemon.RespawnScheduled (d : Daemon) (f : String) : Prop :=
  (∃ w ∈ d.watchers, w.request.flow = f) ∨ ∃ req ∈ d.respawnQueue.queue, req.flow = f

def Runtime.ExitUnjoined (r : Runtime) (f : String) : Prop :=
  ∃ t ∈ r.joinSet, t.flow = f ∧ t.ending ≠ none

/-- The flow runs, or what is pending will start it again. -/
def Daemon.Served (d : Daemon) (f : String) : Prop :=
  d.runtime.BothRunning f ∨ d.RespawnScheduled f ∨ d.runtime.ExitUnjoined f

instance decidableServed (d : Daemon) (f : String) : Decidable (d.Served f) :=
  inferInstanceAs (Decidable ((∃ t ∈ _, ∃ u ∈ _, _) ∨ (_ ∨ _) ∨ ∃ t ∈ _, _))

theorem Paired.served {d : Daemon} (hr : Paired d.runtime) {f : String}
    (h : (d.runtime.handles[f]?).isSome) : d.Served f := by
  obtain ⟨x, hx⟩ := Option.isSome_iff_exists.mp h
  obtain ⟨t, ht, htid, htflow⟩ := hr.tasks f x hx .poll
  obtain ⟨u, hu, huid, huflow⟩ := hr.tasks f x hx .dispatcher
  have hactive := hr.active f x hx
  have htoken : t.token = x.cancel := congrArg Prod.fst htid
  have hutoken : u.token = x.cancel := congrArg Prod.fst huid
  by_cases htend : t.ending = none
  · by_cases huend : u.ending = none
    · refine .inl ⟨t, ht, u, hu, htflow, huflow, congrArg Prod.snd htid, congrArg Prod.snd huid,
        hutoken.trans htoken.symm, ⟨htend, ?_⟩, huend, ?_⟩
      · rwa [htoken]
      · rwa [hutoken]
    · exact .inr (.inr ⟨u, hu, huflow, huend⟩)
  · exact .inr (.inr ⟨t, ht, htflow, htend⟩)

/-- In every run in which no exit of a registered generation is joined unseen, a
reload that returns has every enabled flow of the new configuration, except those
whose setup failed, served; and unless its drain timed out it leaves no cancelled
task behind. -/
theorem reload_loses_no_flow (crates : Crates) (config : Config) (disk : Option State)
    (now : DateTime) (observed : List Observation) (events : List Event) (d d' : Daemon)
    (reload : Reload)
    (hrun : Transition.run (Daemon.step crates) (boot config disk now observed) events = some d)
    (hsees : Transition.Along (Daemon.step crates) SeesExits (boot config disk now observed) events)
    (hpc : d.pc = .spawning reload []) (hreturn : d.step crates .finalize = some d') :
    (∀ flow ∈ reload.newConfig.flow, flow.enabled = true → flow.name ∉ reload.failed →
      d'.Served flow.name) ∧
    (reload.timedOut = false → ∀ t ∈ d'.runtime.joinSet, t.token ∉ d'.runtime.cancelled) := by
  have hboot : Paired (boot config disk now observed).runtime ∧
      Phase (boot config disk now observed).runtime (boot config disk now observed).pc :=
    ⟨.empty, fun f => by simp [boot, Runtime.empty]⟩
  obtain ⟨hr, hphase⟩ := Transition.invariant_along
    (I := fun d => Paired d.runtime ∧ Phase d.runtime d.pc)
    (fun _ _ _ h hsees hstep => (Daemon.step_change hstep).paired_phase h.1 h.2 hsees)
    hboot hsees hrun
  rw [hpc] at hphase
  obtain ⟨-, hquiet, hflows⟩ := hphase
  simp only [Daemon.step, hpc, Option.some.injEq] at hreturn
  subst hreturn
  refine ⟨fun flow hflow henabled hnot => ?_, hquiet⟩
  obtain hrest | hfailed | hsome := hflows flow hflow henabled
  · cases hrest
  · exact absurd hfailed hnot
  · exact hr.served hsome

def twoFlows (refName : String) : Config :=
  ⟨{}, [kernelFlow "linux" "linux.git" "refs/heads/master",
    kernelFlow "stable" "stable.git" refName], by simp [kernelFlow]⟩

/-- The drain joins the two cancelled tasks, while the kept flow's poll task
panics: its exit is left for the select loop. -/
def drainLeavesPanic : List Event :=
  [.spawnNext .ready, .spawnNext .ready, .finalize, .reload (.ok (twoFlows "refs/heads/next")),
    .finish (0, .poll) (.panicked "index out of bounds"), .finish (1, .poll) .returned,
    .drainJoin (1, .poll), .finish (1, .dispatcher) .returned, .drainJoin (1, .dispatcher),
    .drainDone, .pushConfig, .spawnNext .ready, .spawnNext .ready]

theorem reload_keeps_panicked_flow :
    ∃ d d', Transition.run (Daemon.step kernelCrates)
        (boot (twoFlows "refs/heads/master") none 0 []) drainLeavesPanic = some d ∧
      d.step kernelCrates .finalize = some d' ∧
      (∀ flow ∈ (twoFlows "refs/heads/next").flow, d'.Served flow.name) ∧
      ∀ t ∈ d'.runtime.joinSet, t.token ∉ d'.runtime.cancelled := by
  obtain ⟨d, hrun, hpc, hreturns⟩ :
      ∃ d ∈ Transition.run (Daemon.step kernelCrates)
        (boot (twoFlows "refs/heads/master") none 0 []) drainLeavesPanic,
        d.pc = .spawning ⟨twoFlows "refs/heads/next",
          ⟨(∅ : ExtTreeSet String).insert "linux", [], []⟩, false, []⟩ [] ∧
        (d.step kernelCrates .finalize).isSome = true := by
    decide +kernel
  obtain ⟨d', hfinalize⟩ := Option.isSome_iff_exists.mp hreturns
  obtain ⟨hserved, hquiet⟩ := reload_loses_no_flow kernelCrates (twoFlows "refs/heads/master") none 0
    [] drainLeavesPanic d d' _ hrun (by decide +kernel) hpc hfinalize
  refine ⟨d, d', hrun, hfinalize, fun flow hflow => ?_, hquiet rfl⟩
  exact hserved flow hflow (by revert hflow; revert flow; decide) List.not_mem_nil

/-- The same reload, but the drain joins the kept flow's panic and then stops on
its count. The kept flow is left with its dispatcher alone and nothing scheduled,
and the cancelled dispatcher is still in the join set although nothing timed out. -/
theorem drain_swallows_panic :
    ∃ d d', Transition.run (Daemon.step kernelCrates)
        (boot (twoFlows "refs/heads/master") none 0 [])
        [.spawnNext .ready, .spawnNext .ready, .finalize,
          .reload (.ok (twoFlows "refs/heads/next")),
          .finish (0, .poll) (.panicked "index out of bounds"), .drainJoin (0, .poll),
          .finish (1, .poll) .returned, .drainJoin (1, .poll),
          .drainDone, .pushConfig, .spawnNext .ready, .spawnNext .ready] = some d ∧
      d.pc = .spawning ⟨twoFlows "refs/heads/next",
        ⟨(∅ : ExtTreeSet String).insert "linux", [], []⟩, false, []⟩ [] ∧
      d.step kernelCrates .finalize = some d' ∧
      ¬ d'.Served "linux" ∧ ¬ ∀ t ∈ d'.runtime.joinSet, t.token ∉ d'.runtime.cancelled := by
  obtain ⟨d, hrun, hpc, d', hfinalize, hserved, hjoin⟩ :
      ∃ d ∈ Transition.run (Daemon.step kernelCrates)
        (boot (twoFlows "refs/heads/master") none 0 [])
        [.spawnNext .ready, .spawnNext .ready, .finalize,
          .reload (.ok (twoFlows "refs/heads/next")),
          .finish (0, .poll) (.panicked "index out of bounds"), .drainJoin (0, .poll),
          .finish (1, .poll) .returned, .drainJoin (1, .poll),
          .drainDone, .pushConfig, .spawnNext .ready, .spawnNext .ready],
        d.pc = .spawning ⟨twoFlows "refs/heads/next",
          ⟨(∅ : ExtTreeSet String).insert "linux", [], []⟩, false, []⟩ [] ∧
        ∃ d' ∈ d.step kernelCrates .finalize,
          ¬ d'.Served "linux" ∧ ¬ ∀ t ∈ d'.runtime.joinSet, t.token ∉ d'.runtime.cancelled := by
    decide +kernel
  exact ⟨d, d', hrun, hpc, hfinalize, hserved, hjoin⟩

end Gcit.Supervisor
