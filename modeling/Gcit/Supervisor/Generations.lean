import Gcit.Supervisor.Tokens

/-! # At most one live generation of a flow

A task is live while it runs under a token nobody cancelled. The registry is to
hold, for every flow with a live task, the token of all its live tasks. Exits are
handled by flow name only, so this rests on two things about the exits the
supervisor joins: that the registered handle, if there is one, is that of the
task that ended, and that no task returns while its sibling is live.
-/

namespace Gcit.Supervisor

open Std Gcit Gcit.Git Gcit.Poll Gcit.Library Gcit.Library.OrderedMap

/-- The flows a reload in this place has still to spawn, kept ones left out. -/
def Reload.toSpawn (reload : Reload) (rest : List FlowConfig) : List FlowConfig :=
  rest.filter fun flow => flow.name ∉ reload.plan.toKeep

theorem Reload.toSpawn_cons {reload : Reload} {flow : FlowConfig} {rest : List FlowConfig}
    (h : flow.name ∉ reload.plan.toKeep) :
    reload.toSpawn (flow :: rest) = flow :: reload.toSpawn rest := by
  unfold toSpawn
  exact List.filter_cons_of_pos (by simpa using h)

def Pc.toSpawn : Pc → List FlowConfig
  | .booting rest => rest
  | .select => []
  | .draining reload _ | .emitting reload _ => reload.toSpawn reload.newConfig.flow
  | .spawning reload rest => reload.toSpawn rest

namespace Runtime

end Runtime

structure Generations (r : Runtime) (pc : Pc) : Prop where
  fresh : Fresh r
  owned : ∀ t ∈ r.joinSet, r.Live t → r.handles[t.flow]? = some ⟨t.token⟩
  free : ∀ flow ∈ pc.toSpawn, r.handles[flow.name]? = none
  once : (pc.toSpawn.map FlowConfig.name).Nodup

namespace Generations

variable {r r' : Runtime} {pc pc' : Pc}

theorem boot (config : Config) : Generations .empty (.booting config.flow) where
  fresh := .empty
  owned t ht := by cases ht
  free flow _ := by simp [Runtime.empty]
  once := config.distinct

theorem moved (h : Generations r pc) (hpc : pc'.toSpawn.Sublist pc.toSpawn) :
    Generations r pc' where
  fresh := h.fresh
  owned := h.owned
  free flow hflow := h.free flow (hpc.subset hflow)
  once := (hpc.map _).nodup h.once

theorem fewer (h : Generations r pc) (hfresh : Fresh r') (hhandles : r'.handles = r.handles)
    (hcancelled : r'.cancelled = r.cancelled)
    (htasks : ∀ t ∈ r'.joinSet, t.ending = none → t ∈ r.joinSet) : Generations r' pc where
  fresh := hfresh
  owned t ht hlive := by
    rw [hhandles]
    exact h.owned t (htasks t ht hlive.1) ⟨hlive.1, hcancelled ▸ hlive.2⟩
  free flow hflow := hhandles ▸ h.free flow hflow
  once := h.once

theorem finish (h : Generations r pc) {id : Token × FlowRole} {e : TaskEnd}
    (hr' : r.finish id e = some r') : Generations r' pc := by
  have hfresh := h.fresh.shrink (Runtime.finish_shrinks hr')
  obtain ⟨g, rfl, hg⟩ := Runtime.finish_eq_some hr'
  apply h.fewer hfresh rfl rfl
  intro t ht hrunning
  obtain ⟨u, hu, rfl⟩ := List.mem_map.mp ht
  obtain hsame | ⟨-, hended⟩ := hg u
  · exact hsame.symm ▸ hu
  · rw [hended] at hrunning
    cases hrunning

theorem joinNext (h : Generations r pc) {id : Token × FlowRole} {t : Task}
    {j : Except JoinError FlowExit} (hr' : r.joinNext? id = some (t, j, r')) :
    Generations r' pc := by
  have hfresh := h.fresh.shrink (Runtime.joinNext?_shrinks hr')
  obtain ⟨-, -, rfl⟩ := Runtime.joinNext?_eq_some hr'
  exact h.fewer hfresh rfl rfl fun u hu _ => List.mem_of_mem_erase hu

theorem releaseRespawn (h : Generations r pc) (flow : String) :
    Generations (r.releaseRespawn flow) pc :=
  h.fewer (h.fresh.shrink (Runtime.releaseRespawn_shrinks flow)) rfl rfl fun _ ht _ => ht

theorem addPair (h : Generations r pc) {flow : FlowConfig} (effective : EffectivePoll)
    (sha : Option ObjectId) (at_ : Option DateTime) (hfree : r.handles[flow.name]? = none)
    (hpc : pc'.toSpawn.Sublist pc.toSpawn) (hnot : flow.name ∉ pc'.toSpawn.map FlowConfig.name) :
    Generations (r.addPair flow effective sha at_) pc' where
  fresh := h.fresh.addPair flow effective sha at_
  owned t ht hlive := by
    rw [Runtime.lookup_addPair_handles]
    obtain ht | ⟨role, rfl⟩ := Runtime.mem_addPair.mp ht
    · have howned := h.owned t ht hlive
      rw [if_neg, howned]
      intro hname
      rw [← hname, hfree] at howned
      cases howned
    · exact if_pos rfl
  free other hother := by
    rw [Runtime.lookup_addPair_handles, if_neg]
    · exact h.free other (hpc.subset hother)
    · intro hname
      exact hnot (hname ▸ List.mem_map_of_mem hother)
  once := (hpc.map _).nodup h.once

theorem reload (h : Generations r .select) {crates : Crates} {old new : Config} {plan : ReloadPlan}
    (hplan : Planned crates old new r r' plan) (deadline : DateTime) :
    Generations r' (.draining ⟨new, plan, false, []⟩ deadline) where
  fresh := h.fresh.shrink hplan.shrinks
  owned t ht hlive := by
    have howned := h.owned t (hplan.joinSet ▸ ht)
      ⟨hlive.1, fun hmem => hlive.2 ((hplan.cancelled _).mpr (.inl hmem))⟩
    refine (hplan.handles _ _).mpr ⟨howned, ?_⟩
    by_contra hkeep
    exact hlive.2 ((hplan.cancelled _).mpr (.inr ⟨t.flow, _, howned, rfl, hkeep⟩))
  free flow hflow := by
    have hkeep : flow.name ∉ plan.toKeep := by simpa using (List.mem_filter.mp hflow).2
    cases hhandle : r'.handles[flow.name]? with
    | none => rfl
    | some x => exact absurd ((hplan.handles _ x).mp hhandle).2 hkeep
  once := (List.filter_sublist.map _).nodup new.distinct

end Generations

/-- An exit joined by name meets the handle of its own generation or none, and a
task that returned leaves no live sibling. -/
def ExitsOwn (d : Daemon) (e : Event) : Prop :=
  ∀ t ∈ d.runtime.joinSet, e.joins = some t.id →
    (t.named = true → d.runtime.handles[t.flow]? = none ∨
      d.runtime.handles[t.flow]? = some ⟨t.token⟩) ∧
    (t.ending = some .returned → ∀ u ∈ d.runtime.joinSet, u.token = t.token → ¬ d.runtime.Live u)

instance decidableExitsOwn (d : Daemon) (e : Event) : Decidable (ExitsOwn d e) :=
  inferInstanceAs (Decidable (∀ t ∈ d.runtime.joinSet, _ → _ ∧ _))

namespace Generations

variable {crates : Crates} {d : Daemon} {r : Runtime} {pc : Pc} {config : Config}

theorem exit {id : Token × FlowRole} {t : Task} {j : Except JoinError FlowExit}
    (h : Generations d.runtime .select) (hown : ExitsOwn d (.joinNext id))
    (hjoin : d.runtime.joinNext? id = some (t, j, r)) :
    Generations (r.handleFlowExit j).1 .select := by
  have hr := h.joinNext hjoin
  obtain ⟨ht, hj, rfl⟩ := Runtime.joinNext?_eq_some hjoin
  obtain ⟨hnamed, hreturned⟩ := hown t ht (congrArg some (Runtime.joinNext?_id hjoin).symm)
  have hfresh := hr.fresh.shrink (Runtime.handleFlowExit_shrinks hj)
  obtain ⟨e, -, heq⟩ | ⟨hend, heq⟩ | ⟨m, -, -, heq⟩ | ⟨m, -, -, heq⟩ :=
    Runtime.handleFlowExit_cases (r := { d.runtime with joinSet := d.runtime.joinSet.erase t }) hj
  · rw [heq]
    exact hr
  · rw [heq] at hfresh ⊢
    refine ⟨hfresh, fun u hu hlive => ?_, (fun flow hflow => by cases hflow), List.nodup_nil⟩
    simp only [Runtime.dropHandle, Runtime.noteExit_joinSet] at hu
    have hlive : d.runtime.Live u := by simpa [Runtime.Live, Runtime.dropHandle] using hlive
    have howned := h.owned u (List.mem_of_mem_erase hu) hlive
    simp only [Runtime.dropHandle, Runtime.noteExit_handles]
    rw [lookup_erase, if_neg]
    · exact howned
    · intro hname
      -- a live task of the same flow would be the sibling the condition excludes
      rw [← hname] at howned
      obtain hnone | hsome := hnamed (by simp [Task.named, hend])
      · rw [hnone] at howned
        cases howned
      · rw [hsome] at howned
        have htoken : t.token = u.token := congrArg FlowHandle.cancel (Option.some.inj howned)
        exact hreturned hend u (List.mem_of_mem_erase hu) htoken.symm hlive
  · rw [heq]
    exact hr.fewer (by simpa [heq] using hfresh) (by simp) (by simp) fun u hu _ => by simpa using hu
  · rw [heq] at hfresh ⊢
    refine ⟨hfresh, fun u hu hlive => ?_, (fun flow hflow => by cases hflow), List.nodup_nil⟩
    rw [Runtime.startRespawn_joinSet, Runtime.noteExit_joinSet] at hu
    obtain ⟨hrunning, hnot⟩ := hlive
    rw [Runtime.mem_startRespawn_cancelled, not_or, Runtime.noteExit_cancelled,
      Runtime.noteExit_handles] at hnot
    have howned := hr.owned u hu ⟨hrunning, hnot.1⟩
    rw [Runtime.lookup_startRespawn, Runtime.noteExit_handles, if_neg]
    · exact howned
    · intro hname
      exact hnot.2 (hname ▸ howned)

theorem change {e : Event} (h : Generations d.runtime d.pc) (hown : ExitsOwn d e)
    (hchange : Change crates d e r pc config) : Generations r pc := by
  cases hchange with
  | frame => exact h
  | finish hr => exact h.finish hr
  | exit hpc hjoin => exact exit (hpc ▸ h) hown hjoin
  | release flow hpc => exact (hpc ▸ h).releaseRespawn flow
  | respawn effective at_ hpc hreq hmem hfree _ =>
    exact ((hpc ▸ h : Generations d.runtime .select).releaseRespawn _).addPair _ _ _ hfree
      (List.Sublist.refl _) List.not_mem_nil
  | reload deadline hpc =>
    exact (hpc ▸ h : Generations d.runtime .select).reload (planned ..) deadline
  | drainJoin hpc hjoin => exact (hpc ▸ h).joinNext hjoin
  | drained hpc | timedOut hpc | emitted hpc | pushed hpc | bootDone hpc | reloadDone hpc =>
    exact (hpc ▸ h).moved (List.Sublist.refl _)
  | bootSpawn effective at_ hpc =>
    rw [hpc] at h
    exact h.addPair _ _ _ (h.free _ List.mem_cons_self) (List.sublist_cons_self _ _)
      (List.nodup_cons.mp h.once).1
  | bootSkip hpc => exact (hpc ▸ h).moved (List.sublist_cons_self _ _)
  | @reloadSpawn reload flow rest effective at_ hpc hkeep _ =>
    rw [hpc] at h
    have hcons : (Pc.spawning reload (flow :: rest)).toSpawn =
        flow :: (Pc.spawning reload rest).toSpawn := Reload.toSpawn_cons hkeep
    have hfree := h.free flow (hcons ▸ List.mem_cons_self)
    have honce := h.once
    rw [hcons] at honce
    exact (h.releaseRespawn _).addPair _ _ _ hfree (hcons ▸ List.sublist_cons_self _ _)
      (List.nodup_cons.mp honce).1
  | reloadFailed hpc =>
    exact ((hpc ▸ h).releaseRespawn _).moved ((List.sublist_cons_self _ _).filter _)
  | reloadSkip hpc => exact (hpc ▸ h).moved ((List.sublist_cons_self _ _).filter _)

theorem run (crates : Crates) (config : Config) (disk : Option State) (now : DateTime)
    (observed : List Observation) {events : List Event}
    (hrun : Transition.run (Daemon.step crates) (Supervisor.boot config disk now observed) events =
      some d)
    (hown : Transition.Along (Daemon.step crates) ExitsOwn
      (Supervisor.boot config disk now observed) events) : Generations d.runtime d.pc :=
  Transition.invariant_along (I := fun d => Generations d.runtime d.pc)
    (fun _ _ _ hd hown h => hd.change hown (Daemon.step_change h)) (.boot config) hown hrun

end Generations

end Gcit.Supervisor
