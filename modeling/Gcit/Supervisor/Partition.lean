import Gcit.Supervisor.Tokens

/-! # A reload sorts every name once

Every name of either configuration or of the registry gets one action, but for a flow that
is disabled in the new configuration and does not run. The lists that the walk over the
actions hands on are parts of that division, and so is what it does to the handles, since
no two of them share a token.
-/

namespace Gcit.Supervisor

open Std Gcit Gcit.Git Gcit.Poll Gcit.Library

theorem filterMap_sublist_map {α β : Type} {f : α → Option β} {g : α → β} {xs : List α}
    (h : ∀ x ∈ xs, ∀ y ∈ f x, g x = y) : (xs.filterMap f).Sublist (xs.map g) := by
  induction xs with
  | nil => exact .slnil
  | cons x xs ih =>
    have hrest := ih fun y hy => h y (List.mem_cons_of_mem x hy)
    cases hx : f x with
    | none => rw [List.filterMap_cons_none hx]; exact hrest.cons _
    | some y =>
      rw [List.filterMap_cons_some hx, List.map_cons, h x List.mem_cons_self y hx]
      exact hrest.cons_cons y

section Actions

variable {crates : Crates} {old new : Config} {handles : ExtTreeMap String FlowHandle}

theorem nodup_names : ((computeReloadActions crates old new handles).map ReloadAction.name).Nodup := by
  rw [computeReloadActions, List.map_filterMap]
  refine List.Nodup.sublist (filterMap_sublist_map (g := id) ?_) (by
    rw [List.map_id]
    exact OrderedMap.nodup_toList _)
  rintro name - _ hname
  obtain ⟨a, ha, rfl⟩ := Option.map_eq_some_iff.mp hname
  exact (name_of_classify ha).symm

theorem eq_of_name {a a' : ReloadAction} (ha : a ∈ computeReloadActions crates old new handles)
    (ha' : a' ∈ computeReloadActions crates old new handles) (hname : a.name = a'.name) :
    a = a' := by
  have hclassify := mem_computeReloadActions.mp ha
  rw [hname, mem_computeReloadActions.mp ha'] at hclassify
  exact (Option.some.inj hclassify).symm

def Idle (new : Config) (handles : ExtTreeMap String FlowHandle) (f : String) : Prop :=
  ∃ nf ∈ new.find? f, nf.enabled = false ∧ handles[f]? = none

theorem classify_isSome {of nf : Option FlowConfig} {live : Bool} {name : String} :
    (classify crates of nf live name).isSome ↔
      (of.isSome ∨ nf.isSome ∨ live = true) ∧
        ¬ ∃ flow ∈ nf, flow.enabled = false ∧ live = false := by
  unfold classify
  repeat' split
  all_goals simp_all

theorem exists_action_iff {f : String} :
    (∃ a ∈ computeReloadActions crates old new handles, a.name = f) ↔
      ((old.find? f).isSome ∨ (new.find? f).isSome ∨ (handles[f]?).isSome) ∧
        ¬ Idle new handles f := by
  have hclassified : (∃ a ∈ computeReloadActions crates old new handles, a.name = f) ↔
      (classify crates (old.find? f) (new.find? f) (handles[f]?).isSome f).isSome := by
    rw [Option.isSome_iff_exists]
    constructor
    · rintro ⟨a, ha, rfl⟩
      exact ⟨a, mem_computeReloadActions.mp ha⟩
    · rintro ⟨a, ha⟩
      obtain rfl := name_of_classify ha
      exact ⟨a, mem_computeReloadActions.mpr ha, rfl⟩
  rw [hclassified, classify_isSome, Idle]
  simp only [Option.isSome_eq_false_iff, Option.isNone_iff_eq_none]

theorem nodup_plan :
    (((computeReloadActions crates old new handles).filterMap Walk.removedName) ++
      (computeReloadActions crates old new handles).filterMap Walk.resetName).Nodup := by
  have hremoved : ∀ a ∈ computeReloadActions crates old new handles,
      ∀ f ∈ Walk.removedName a, a.name = f := by
    rintro (_ | _ | _ | _ | _) - f ⟨⟩
    rfl
  have hreset : ∀ a ∈ computeReloadActions crates old new handles,
      ∀ f ∈ Walk.resetName a, a.name = f := by
    rintro (_ | _ | ⟨_, _ | _⟩ | ⟨_, _ | _⟩ | _) - f ⟨⟩
    · rfl
    · rfl
  refine List.Nodup.append (nodup_names.sublist (filterMap_sublist_map hremoved))
    (nodup_names.sublist (filterMap_sublist_map hreset)) ?_
  intro f hf hf'
  obtain ⟨live, ha⟩ := mem_filterMap_removedName.mp hf
  obtain ha' | ha' := mem_filterMap_resetName.mp hf'
  · cases eq_of_name ha ha' rfl
  · cases eq_of_name ha ha' rfl

theorem nodup_removed_resets (r : Runtime) :
    let plan := (applyActionsToRegistry (computeReloadActions crates old new r.handles) r).2
    (plan.removedFlows ++ plan.urlResets).Nodup := by
  obtain ⟨-, hremoved, hresets⟩ :=
    Walk.foldl_plan (.start r) (computeReloadActions crates old new r.handles)
  simp only [applyActionsToRegistry]
  rw [hremoved, hresets]
  exact nodup_plan

end Actions

/-- Every handle has a token of its own, and nobody has cancelled it. -/
structure OwnTokens (r : Runtime) : Prop where
  own : ∀ (f g : String) (h : FlowHandle), r.handles[f]? = some h → r.handles[g]? = some h → f = g
  active : ∀ (f : String) (h : FlowHandle), r.handles[f]? = some h → h.cancel ∉ r.cancelled

/-- The registry as the flows fill it. -/
structure OwnRuntime extends Runtime where
  tokens : OwnTokens toRuntime

/-- Every token was given out, and the handles have tokens of their own. -/
structure Owned (r : Runtime) : Prop extends OwnTokens r where
  fresh : Fresh r

namespace Owned

variable {r r' : Runtime}

theorem empty : Owned .empty where
  fresh := .empty
  own f g h hf := by simp [Runtime.empty] at hf
  active f h hf := by simp [Runtime.empty] at hf

theorem shrink (hr : Owned r) (hshrinks : r.Shrinks r')
    (hgone : ∀ k ∈ r'.cancelled, k ∈ r.cancelled ∨
      ∃ f : String, r.handles[f]? = some ⟨k⟩ ∧ r'.handles[f]? = none) : Owned r' where
  fresh := hr.fresh.shrink hshrinks
  own f g h hf hg := hr.own f g h (hshrinks.handles f h hf) (hshrinks.handles g h hg)
  active f h hf hcancelled := by
    have hold := hshrinks.handles f h hf
    obtain hbefore | ⟨g, hg, hnone⟩ := hgone h.cancel hcancelled
    · exact hr.active f h hold hbefore
    · obtain rfl := hr.own f g h hold hg
      rw [hf] at hnone
      cases hnone

theorem addPair (hr : Owned r) (flow : FlowConfig) (effective : EffectivePoll)
    (sha : Option ObjectId) (at_ : Option DateTime) : Owned (r.addPair flow effective sha at_) where
  fresh := hr.fresh.addPair flow effective sha at_
  own f g h hf hg := by
    have hold : ∀ f : String, r.handles[f]? ≠ some ⟨r.nextToken⟩ :=
      fun f hf => Nat.lt_irrefl _ (hr.fresh.handles f _ hf)
    rw [Runtime.lookup_addPair_handles] at hf hg
    split at hf
    case isTrue hflow =>
      cases hf
      split at hg
      case isTrue hflow' => exact hflow.symm.trans hflow'
      case isFalse => exact absurd hg (hold g)
    case isFalse =>
      split at hg
      case isTrue => cases hg; exact absurd hf (hold f)
      case isFalse => exact hr.own f g h hf hg
  active f h hf hcancelled := by
    rw [Runtime.lookup_addPair_handles] at hf
    split at hf
    case isTrue =>
      cases hf
      exact Nat.lt_irrefl _ (hr.fresh.cancelled _ hcancelled)
    case isFalse => exact hr.active f h hf hcancelled

theorem handleFlowExit (hr : Owned r) {t : Task} {j : Except JoinError FlowExit}
    (h : t.joined = some j) : Owned (r.handleFlowExit j).1 := by
  apply hr.shrink (Runtime.handleFlowExit_shrinks h)
  intro k hk
  obtain ⟨e, -, heq⟩ | ⟨-, heq⟩ | ⟨m, -, -, heq⟩ | ⟨m, -, -, heq⟩ :=
    Runtime.handleFlowExit_cases (r := r) h
  · exact .inl (heq ▸ hk)
  · rw [heq] at hk
    exact .inl (by simpa [Runtime.dropHandle] using hk)
  · rw [heq] at hk
    exact .inl (by simpa using hk)
  · rw [heq, Runtime.mem_startRespawn_cancelled, Runtime.noteExit_cancelled,
      Runtime.noteExit_handles] at hk
    refine hk.imp_right fun hhandle => ⟨t.flow, hhandle, ?_⟩
    rw [heq, Runtime.lookup_startRespawn, if_pos rfl]

theorem reload (hr : Owned r) {crates : Crates} {old new : Config} {plan : ReloadPlan}
    (h : Planned crates old new r r' plan) : Owned r' := by
  apply hr.shrink h.shrinks
  intro k hk
  obtain hk | ⟨f, ⟨k⟩, hf, rfl, hdropped⟩ := (h.cancelled k).mp hk
  · exact .inl hk
  · refine .inr ⟨f, hf, Option.eq_none_iff_forall_ne_some.mpr fun x hx => ?_⟩
    exact hdropped ((h.handles f x).mp hx).2

theorem change {crates : Crates} {d : Daemon} {e : Event} {pc : Pc} {config : Config}
    (hd : Owned d.runtime) (h : Change crates d e r pc config) : Owned r := by
  have hrelease (flow : String) : Owned (d.runtime.releaseRespawn flow) :=
    hd.shrink (Runtime.releaseRespawn_shrinks flow) fun _ hk => .inl hk
  have hjoin {id t j r} (h : d.runtime.joinNext? id = some (t, j, r)) : Owned r := by
    refine hd.shrink (Runtime.joinNext?_shrinks h) fun k hk => .inl ?_
    obtain ⟨-, -, rfl⟩ := Runtime.joinNext?_eq_some h
    exact hk
  cases h with
  | frame | drained | timedOut | emitted | pushed | bootSkip | reloadSkip | bootDone | reloadDone =>
    exact hd
  | finish h =>
    refine hd.shrink (Runtime.finish_shrinks h) fun k hk => .inl ?_
    obtain ⟨g, rfl, -⟩ := Runtime.finish_eq_some h
    exact hk
  | exit hpc h => exact (hjoin h).handleFlowExit (Runtime.joinNext?_eq_some h).2.1
  | release flow | reloadFailed => exact hrelease _
  | respawn effective at_ hpc hreq hmem hfree hspawns => exact (hrelease _).addPair _ effective _ at_
  | reload => exact hd.reload (planned ..)
  | drainJoin hpc h => exact hjoin h
  | bootSpawn effective at_ hpc hspawns => exact hd.addPair _ effective _ at_
  | reloadSpawn effective at_ hpc hkeep hspawns => exact (hrelease _).addPair _ effective _ at_

end Owned

/-- What the supervisor reloads, whatever happened before, is an `OwnRuntime`. -/
theorem exists_ownRuntime {crates : Crates} {config : Config} {disk : Option State}
    {now : DateTime} {observed : List Observation} {events : List Event} {d : Daemon}
    (hrun : Transition.run (Daemon.step crates) (boot config disk now observed) events = some d) :
    ∃ r : OwnRuntime, r.toRuntime = d.runtime := by
  have howned : Owned d.runtime := Transition.invariant_run (I := fun d => Owned d.runtime)
    (fun _ _ _ h hstep => h.change (Daemon.step_change hstep)) .empty hrun
  exact ⟨⟨d.runtime, howned.toOwnTokens⟩, rfl⟩

/-- The flows that `spawn_new_generation` hands to `spawn_flow`. -/
def spawnCalls (toKeep : ExtTreeSet String) (flows : List FlowConfig) : List FlowConfig :=
  flows.filter fun flow => ¬ (flow.enabled = false ∨ toKeep.contains flow.name)

namespace Daemon

def goto (d : Daemon) (pc : Pc) : Daemon := { d with pc := pc }

variable (crates : Crates) (setup : FlowConfig → Setup)

def respawned (d : Daemon) (flow : FlowConfig) : Daemon :=
  (d.releaseRespawn flow.name).spawnFlow crates flow (setup flow)

theorem foldl_respawned_goto (d : Daemon) (pc : Pc) (flows : List FlowConfig) :
    flows.foldl (respawned crates setup) (d.goto pc) =
      (flows.foldl (respawned crates setup) d).goto pc := by
  have hturn (d : Daemon) (flow : FlowConfig) :
      (d.goto pc).respawned crates setup flow = (d.respawned crates setup flow).goto pc := by
    unfold respawned
    cases setup flow <;> rfl
  induction flows generalizing d with
  | nil => rfl
  | cons flow flows ih => rw [List.foldl_cons, hturn, ih, List.foldl_cons]

/-- The loop spawns the flows of `spawnCalls` in order and leaves the others alone. -/
theorem run_spawnNext {d : Daemon} {reload : Reload} {flows : List FlowConfig}
    (hpc : d.pc = .spawning reload flows) :
    ∃ failed, Transition.run (step crates) d (flows.map fun flow => .spawnNext (setup flow)) =
      some (((spawnCalls reload.plan.toKeep flows).foldl (respawned crates setup) d).goto
        (.spawning { reload with failed := failed } [])) := by
  induction flows generalizing d reload with
  | nil =>
    refine ⟨reload.failed, congrArg some ?_⟩
    change d = d.goto (.spawning reload [])
    rw [← hpc]
    rfl
  | cons flow flows ih =>
    have hstep : d.step crates (.spawnNext (setup flow)) =
        some (d.spawnNewGeneration crates reload flow flows (setup flow)) := by
      simp only [step, hpc]
    by_cases hskip : flow.enabled = false ∨ reload.plan.toKeep.contains flow.name
    · have hcalls : spawnCalls reload.plan.toKeep (flow :: flows) =
          spawnCalls reload.plan.toKeep flows :=
        List.filter_cons_of_neg (by simpa only [decide_eq_true_eq, not_not] using hskip)
      have hturn : d.spawnNewGeneration crates reload flow flows (setup flow) =
          d.goto (.spawning reload flows) := if_pos hskip
      obtain ⟨failed, hrun⟩ := ih (d := d.goto (.spawning reload flows)) rfl
      refine ⟨failed, Transition.run_cons_eq_some.mpr ⟨_, hstep, ?_⟩⟩
      rw [hturn, hrun, hcalls, foldl_respawned_goto]
      rfl
    · have hcalls : spawnCalls reload.plan.toKeep (flow :: flows) =
          flow :: spawnCalls reload.plan.toKeep flows :=
        List.filter_cons_of_pos (by simpa only [decide_eq_true_eq] using hskip)
      let reload' := { reload with
        failed := if setup flow = Setup.ready then reload.failed else reload.failed ++ [flow.name] }
      have hturn : d.spawnNewGeneration crates reload flow flows (setup flow) =
          (d.respawned crates setup flow).goto (.spawning reload' flows) := by
        rw [spawnNewGeneration, if_neg hskip]
        rfl
      have hpc' : ((d.respawned crates setup flow).goto (.spawning reload' flows)).pc =
          .spawning reload' flows := rfl
      obtain ⟨failed, hrun⟩ := ih hpc'
      refine ⟨failed, Transition.run_cons_eq_some.mpr ⟨_, hstep, ?_⟩⟩
      rw [hturn, hrun, hcalls, foldl_respawned_goto, List.foldl_cons]
      rfl

end Daemon

/-- The flows that are to run after a reload and are not kept. -/
def Starts (actions : List ReloadAction) (new : Config) (f : String) : Prop :=
  ∃ nf ∈ new.find? f, nf.enabled = true ∧ .keep f ∉ actions

section Plan

variable {crates : Crates} {old new : Config} {r r' : Runtime} {plan : ReloadPlan}

theorem Planned.keep_iff (hplan : Planned crates old new r r' plan) {f : String} :
    .keep f ∈ computeReloadActions crates old new r.handles ↔ f ∈ plan.toKeep :=
  keep_mem_iff.trans (hplan.toKeep f).symm

theorem mem_spawnCalls_iff (hplan : Planned crates old new r r' plan) {f : String} :
    f ∈ (spawnCalls plan.toKeep new.flow).map FlowConfig.name ↔
      Starts (computeReloadActions crates old new r.handles) new f := by
  simp only [Starts, spawnCalls, List.mem_map, List.mem_filter, decide_eq_true_eq, not_or,
    hplan.keep_iff, ExtTreeSet.contains_iff_mem, Bool.not_eq_false]
  constructor
  · rintro ⟨nf, ⟨hmem, henabled, hkept⟩, rfl⟩
    exact ⟨nf, Config.find?_eq_some hmem, henabled, hkept⟩
  · rintro ⟨nf, hfind, henabled, hkept⟩
    obtain ⟨hmem, rfl⟩ := Config.mem_of_find? hfind
    exact ⟨nf, ⟨hmem, henabled, hkept⟩, rfl⟩

theorem spawn_or_restart_iff {handles : ExtTreeMap String FlowHandle} {f : String} :
    (∃ a ∈ computeReloadActions crates old new handles, a = .spawn f ∨
        ∃ urlChanged, a = .restart f urlChanged) ↔
      Starts (computeReloadActions crates old new handles) new f := by
  have haction : (∃ a ∈ computeReloadActions crates old new handles, a = .spawn f ∨
        ∃ urlChanged, a = .restart f urlChanged) ↔
      .spawn f ∈ computeReloadActions crates old new handles ∨
        ∃ urlChanged, .restart f urlChanged ∈ computeReloadActions crates old new handles := by
    constructor
    · rintro ⟨_, ha, rfl | ⟨urlChanged, rfl⟩⟩
      · exact .inl ha
      · exact .inr ⟨urlChanged, ha⟩
    · rintro (ha | ⟨urlChanged, ha⟩)
      · exact ⟨_, ha, .inl rfl⟩
      · exact ⟨_, ha, .inr ⟨urlChanged, rfl⟩⟩
  rw [haction, Starts]
  simp only [mem_computeReloadActions, ReloadAction.name]
  unfold classify
  repeat' split
  all_goals simp_all
  exact eq_or_ne _ _

end Plan

/-- For every two configurations and every registry: the actions sort the names, and what
the walk over them leaves behind is that division. -/
theorem reload_sorts_names (crates : Crates) (old new : Config) (r : OwnRuntime) :
    let actions := computeReloadActions crates old new r.handles
    let (r', plan) := applyActionsToRegistry actions r.toRuntime
    (actions.map ReloadAction.name).Nodup ∧
      (∀ f, (∃ a ∈ actions, a.name = f) ↔
        ((old.find? f).isSome ∨ (new.find? f).isSome ∨ (r.handles[f]?).isSome) ∧
          ¬ Idle new r.handles f) ∧
      (plan.removedFlows ++ plan.urlResets).Nodup ∧
      (∀ f, .keep f ∈ actions → ∃ h, r.handles[f]? = some h ∧ r'.handles[f]? = some h ∧
        h.cancel ∉ r'.cancelled) ∧
      (∀ f h, r.handles[f]? = some h → .keep f ∉ actions → h.cancel ∈ r'.cancelled) ∧
      ∀ f, (f ∈ (spawnCalls plan.toKeep new.flow).map FlowConfig.name ↔ Starts actions new f) ∧
        ((∃ a ∈ actions, a = .spawn f ∨ ∃ urlChanged, a = .restart f urlChanged) ↔
          Starts actions new f) := by
  have hplan := planned crates old new r.toRuntime
  refine ⟨nodup_names, fun f => exists_action_iff, nodup_removed_resets _, fun f hf => ?_,
    fun f h hf hdropped => ?_, fun f => ⟨mem_spawnCalls_iff hplan, spawn_or_restart_iff⟩⟩
  · obtain ⟨h, hh⟩ := Option.isSome_iff_exists.mp (keep_mem_iff.mp hf).1
    have hkept := hplan.keep_iff.mp hf
    refine ⟨h, hh, (hplan.handles f h).mpr ⟨hh, hkept⟩, fun hcancelled => ?_⟩
    obtain hbefore | ⟨g, x, hg, htoken, hdropped⟩ := (hplan.cancelled h.cancel).mp hcancelled
    · exact r.tokens.active f h hh hbefore
    · obtain rfl : x = h := congrArg FlowHandle.mk htoken
      exact hdropped (r.tokens.own f g x hh hg ▸ hkept)
  · exact (hplan.cancelled h.cancel).mpr
      (.inr ⟨f, h, hf, rfl, fun hkept => hdropped (hplan.keep_iff.mpr hkept)⟩)

end Gcit.Supervisor
