import Gcit.Supervisor.Change
import Gcit.Supervisor.Plan

/-! # Tokens are never used twice

Every generation gets a token of its own. All changes but a spawn only take tasks
and handles away, or cancel a token that a handle held; so a token in use was
given out before, and the id of a task is its own.
-/

namespace Gcit.Supervisor

open Std Gcit Gcit.Git Gcit.Poll Gcit.Library Gcit.Library.OrderedMap

namespace Runtime

/-- `r'` has no task, handle or cancelled token that `r` does not account for. -/
structure Shrinks (r r' : Runtime) : Prop where
  nextToken : r'.nextToken = r.nextToken
  ids : (r'.joinSet.map Task.id).Sublist (r.joinSet.map Task.id)
  handles : ∀ (f : String) (h : FlowHandle), r'.handles[f]? = some h → r.handles[f]? = some h
  cancelled : ∀ k ∈ r'.cancelled, k ∈ r.cancelled ∨ ∃ f : String, r.handles[f]? = some ⟨k⟩

variable {r r' : Runtime} {t : Task} {j : Except JoinError FlowExit}

theorem Shrinks.refl (r : Runtime) : Shrinks r r :=
  ⟨rfl, List.Sublist.refl _, fun _ _ h => h, fun _ h => .inl h⟩

theorem finish_ids {id : Token × FlowRole} {e : TaskEnd} (h : r.finish id e = some r') :
    r'.joinSet.map Task.id = r.joinSet.map Task.id := by
  obtain ⟨g, rfl, hg⟩ := finish_eq_some h
  rw [List.map_map]
  apply List.map_congr_left
  intro t _
  obtain h | ⟨-, h⟩ := hg t
  · rw [Function.comp_apply, h]
  · rw [Function.comp_apply, h]
    rfl

theorem finish_shrinks {id : Token × FlowRole} {e : TaskEnd} (h : r.finish id e = some r') :
    Shrinks r r' := by
  have hids := finish_ids h
  obtain ⟨g, rfl, -⟩ := finish_eq_some h
  exact ⟨rfl, hids ▸ List.Sublist.refl _, fun _ _ h => h, fun _ h => .inl h⟩

theorem joinNext?_shrinks {id : Token × FlowRole} (h : r.joinNext? id = some (t, j, r')) :
    Shrinks r r' := by
  obtain ⟨-, -, rfl⟩ := joinNext?_eq_some h
  exact ⟨rfl, List.erase_sublist.map _, fun _ _ h => h, fun _ h => .inl h⟩

theorem handleFlowExit_shrinks (h : t.joined = some j) : Shrinks r (r.handleFlowExit j).1 := by
  obtain ⟨e, -, heq⟩ | ⟨-, heq⟩ | ⟨m, -, -, heq⟩ | ⟨m, -, -, heq⟩ :=
    handleFlowExit_cases (r := r) h
  · rw [heq]
    exact .refl r
  · rw [heq]
    refine ⟨by simp [dropHandle], by simp [dropHandle], fun f h hf => ?_, fun k hk => ?_⟩
    · simp only [dropHandle, noteExit_handles, lookup_erase] at hf
      split at hf
      · cases hf
      · exact hf
    · exact .inl (by simpa [dropHandle] using hk)
  · rw [heq]
    exact ⟨by simp, by simp, fun f h hf => by simpa using hf, fun k hk => .inl (by simpa using hk)⟩
  · rw [heq]
    refine ⟨by simp, by simp, fun f h hf => ?_, fun k hk => ?_⟩
    · rw [lookup_startRespawn, noteExit_handles] at hf
      split at hf
      · cases hf
      · exact hf
    · rw [mem_startRespawn_cancelled, noteExit_handles, noteExit_cancelled] at hk
      exact hk.imp_right fun h => ⟨t.flow, h⟩

theorem Shrinks.trans {r'' : Runtime} (h : Shrinks r r') (h' : Shrinks r' r'') : Shrinks r r'' where
  nextToken := h'.nextToken.trans h.nextToken
  ids := h'.ids.trans h.ids
  handles f x hx := h.handles f x (h'.handles f x hx)
  cancelled k hk := by
    obtain hk | ⟨f, hf⟩ := h'.cancelled k hk
    · exact h.cancelled k hk
    · exact .inr ⟨f, h.handles f _ hf⟩

theorem releaseRespawn_shrinks (flow : String) : Shrinks r (r.releaseRespawn flow) :=
  ⟨rfl, List.Sublist.refl _, fun _ _ h => h, fun _ h => .inl h⟩

end Runtime

theorem Planned.shrinks {crates : Crates} {old new : Config} {r r' : Runtime} {plan : ReloadPlan}
    (h : Planned crates old new r r' plan) : r.Shrinks r' where
  nextToken := h.nextToken
  ids := h.joinSet ▸ List.Sublist.refl _
  handles f x hx := ((h.handles f x).mp hx).1
  cancelled k hk := by
    obtain hk | ⟨f, x, hx, rfl, -⟩ := (h.cancelled k).mp hk
    · exact .inl hk
    · exact .inr ⟨f, hx⟩

theorem Change.shrinks_or_spawns {crates : Crates} {d : Daemon} {e : Event} {r : Runtime} {pc : Pc}
    {config : Config} (h : Change crates d e r pc config) :
    d.runtime.Shrinks r ∨ ∃ m flow effective at_, d.runtime.Shrinks m ∧ d.spawns e = some flow ∧
      r = m.addPair flow effective (readPersistedLastSha d.writer.mirror flow.name) at_ := by
  cases h with
  | frame | drained | timedOut | emitted | pushed | bootSkip | reloadSkip | bootDone | reloadDone =>
    exact .inl (.refl _)
  | finish h => exact .inl (Runtime.finish_shrinks h)
  | exit hpc h =>
    exact .inl ((Runtime.joinNext?_shrinks h).trans
      (Runtime.handleFlowExit_shrinks (Runtime.joinNext?_eq_some h).2.1))
  | release flow | reloadFailed => exact .inl (Runtime.releaseRespawn_shrinks _)
  | reload => exact .inl (planned ..).shrinks
  | drainJoin hpc h => exact .inl (Runtime.joinNext?_shrinks h)
  | respawn effective at_ hpc hreq hmem hfree hspawns =>
    exact .inr ⟨_, _, _, _, Runtime.releaseRespawn_shrinks _, hspawns, rfl⟩
  | reloadSpawn effective at_ hpc hkeep hspawns =>
    exact .inr ⟨_, _, _, _, Runtime.releaseRespawn_shrinks _, hspawns, rfl⟩
  | bootSpawn effective at_ hpc hspawns => exact .inr ⟨_, _, _, _, .refl _, hspawns, rfl⟩

/-- All tokens in use were given out before, and no two tasks share an id. -/
structure Fresh (r : Runtime) : Prop where
  tasks : ∀ t ∈ r.joinSet, t.token < r.nextToken
  handles : ∀ (f : String) (h : FlowHandle), r.handles[f]? = some h → h.cancel < r.nextToken
  cancelled : ∀ k ∈ r.cancelled, k < r.nextToken
  ids : (r.joinSet.map Task.id).Nodup

namespace Fresh

variable {r r' : Runtime}

theorem empty : Fresh .empty where
  tasks t ht := by cases ht
  handles f h hf := by simp [Runtime.empty] at hf
  cancelled k hk := by cases hk
  ids := List.nodup_nil

theorem shrink (hr : Fresh r) (h : r.Shrinks r') : Fresh r' where
  tasks t ht := by
    have hid := h.ids.subset (List.mem_map_of_mem ht)
    obtain ⟨u, hu, heq⟩ := List.mem_map.mp hid
    rw [h.nextToken, show t.token = u.token from (congrArg Prod.fst heq).symm]
    exact hr.tasks u hu
  handles f x hx := h.nextToken ▸ hr.handles f x (h.handles f x hx)
  cancelled k hk := by
    rw [h.nextToken]
    obtain hk | ⟨f, hf⟩ := h.cancelled k hk
    · exact hr.cancelled k hk
    · exact hr.handles f _ hf
  ids := h.ids.nodup hr.ids

theorem addPair (hr : Fresh r) (flow : FlowConfig) (effective : EffectivePoll)
    (sha : Option ObjectId) (at_ : Option DateTime) : Fresh (r.addPair flow effective sha at_) where
  tasks t ht := by
    obtain ht | ⟨role, rfl⟩ := Runtime.mem_addPair.mp ht
    · exact Nat.lt_succ_of_lt (hr.tasks t ht)
    · exact Nat.lt_succ_self _
  handles f x hx := by
    rw [Runtime.lookup_addPair_handles] at hx
    split at hx
    · cases hx
      exact Nat.lt_succ_self _
    · exact Nat.lt_succ_of_lt (hr.handles f x hx)
  cancelled k hk := Nat.lt_succ_of_lt (hr.cancelled k hk)
  ids := by
    have hnew : ∀ role, (r.nextToken, role) ∉ r.joinSet.map Task.id := by
      intro role hmem
      obtain ⟨u, hu, heq⟩ := List.mem_map.mp hmem
      have hlt := hr.tasks u hu
      rw [show u.token = r.nextToken from congrArg Prod.fst heq] at hlt
      exact Nat.lt_irrefl _ hlt
    simp only [Runtime.addPair, List.map_append, List.map_cons, List.map_nil]
    apply List.Nodup.append hr.ids (by simp [Task.id])
    intro id hid hpair
    simp only [Task.id, List.mem_cons, List.not_mem_nil, or_false] at hpair
    obtain rfl | rfl := hpair
    · exact hnew _ hid
    · exact hnew _ hid

theorem change {crates : Crates} {d : Daemon} {e : Event} {pc : Pc} {config : Config}
    (hd : Fresh d.runtime) (h : Change crates d e r pc config) : Fresh r := by
  obtain h | ⟨m, flow, effective, at_, hm, -, rfl⟩ := h.shrinks_or_spawns
  · exact hd.shrink h
  · exact (hd.shrink hm).addPair flow effective _ at_

theorem spawned {crates : Crates} {d : Daemon} {e : Event} {pc : Pc} {config : Config}
    (hd : Fresh d.runtime) (h : Change crates d e r pc config) {t : Task} (ht : t ∈ r.joinSet)
    (hnew : t.token = d.runtime.nextToken) :
    d.spawns e = some t.config ∧
      t.initialLastSha = readPersistedLastSha d.writer.mirror t.config.name := by
  have hold : ∀ m, d.runtime.Shrinks m → t ∉ m.joinSet := by
    intro m hm hmem
    have hlt := (hd.shrink hm).tasks t hmem
    rw [hnew, hm.nextToken] at hlt
    exact Nat.lt_irrefl _ hlt
  obtain h | ⟨m, flow, effective, at_, hm, hspawns, rfl⟩ := h.shrinks_or_spawns
  · exact absurd ht (hold r h)
  · obtain ht | ⟨role, rfl⟩ := Runtime.mem_addPair.mp ht
    · exact absurd ht (hold m hm)
    · exact ⟨hspawns, rfl⟩

theorem run (crates : Crates) {config : Config} {disk : Option State} {now : DateTime}
    {observed : List Observation} {events : List Event} {d : Daemon}
    (hrun : Transition.run (Daemon.step crates) (Supervisor.boot config disk now observed) events =
      some d) : Fresh d.runtime :=
  Transition.invariant_run (I := fun d => Fresh d.runtime)
    (fun _ _ _ h hstep => h.change (Daemon.step_change hstep)) .empty hrun

theorem eq_of_id_eq (hr : Fresh r) {t u : Task} (ht : t ∈ r.joinSet) (hu : u ∈ r.joinSet)
    (h : t.id = u.id) : t = u :=
  List.inj_on_of_nodup_map hr.ids ht hu h

end Fresh

end Gcit.Supervisor
