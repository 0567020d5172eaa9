import Gcit.Control.Status
import Gcit.Supervisor.Effective

/-! # The flows that the status lists

The reply merges the names of the registered flows with the keys of the recorded errors.
The first follow the configuration. The second follow nobody: a reload takes away its own
key alone, so the error of a flow it removes stays, and is listed as one more flow.
-/

namespace Gcit.Control

open Std Gcit Gcit.Poll Gcit.Library Gcit.Library.OrderedMap

variable {rfc3339 : DateTime → String} {flowsState : ExtTreeMap String FlowState}
  {errors : LastErrors}

theorem mem_foldl_render (names : List String) (out : ExtTreeMap String Json) (key : String) :
    key ∈ names.foldl (fun out name => out.insert name (renderOne rfc3339 name flowsState errors)) out ↔
      key ∈ out ∨ key ∈ names := by
  induction names generalizing out with
  | nil => simp
  | cons name names ih =>
    rw [List.foldl_cons, ih, ExtTreeMap.mem_insert, Std.compare_eq_iff_eq, List.mem_cons,
      eq_comm (a := name), or_comm (a := key = name), or_assoc]

theorem mem_foldl_renderMissing (keys : List String) (out : ExtTreeMap String Json) (key : String) :
    key ∈ keys.foldl (fun out key => if out.contains key then out
        else out.insert key (renderOne rfc3339 key flowsState errors)) out ↔
      key ∈ out ∨ key ∈ keys := by
  induction keys generalizing out with
  | nil => simp
  | cons k keys ih =>
    rw [List.foldl_cons, ih, List.mem_cons]
    split
    case isTrue hpresent =>
      have hk : k ∈ out := ExtTreeMap.contains_iff_mem.mp hpresent
      grind
    case isFalse =>
      rw [ExtTreeMap.mem_insert, Std.compare_eq_iff_eq]
      grind

theorem mem_renderAll {names : List String} {key : String} :
    key ∈ renderAll rfc3339 names flowsState errors ↔ key ∈ names ∨ key ∈ errors := by
  rw [renderAll, mem_foldl_renderMissing, mem_foldl_render, ExtTreeMap.mem_keys]
  simp

end Gcit.Control

namespace Gcit.Supervisor

open Std Gcit Gcit.Git Gcit.Poll Gcit.Library Gcit.Library.OrderedMap

def isSyntheticDaemonKey (name : String) : Bool :=
  name.toList.head? == some '(' && name.toList.getLast? == some ')'

/-- A flow of the configuration, or one of the daemon's own keys. -/
def Current (config : Config) (name : String) : Prop :=
  (config.find? name).isSome ∨ isSyntheticDaemonKey name

instance decidableCurrent (config : Config) (name : String) : Decidable (Current config name) :=
  inferInstanceAs (Decidable (_ ∨ _))

/-- The reply to `status` without a flow. -/
def Daemon.status (rfc3339 : DateTime → String) (d : Daemon) : Except String Json :=
  Control.status rfc3339 d.flowNames d.lastErrors d.writer.mirror none

/-- The status lists every running flow, and nothing that is not configured. -/
def ListsCurrent (rfc3339 : DateTime → String) (d : Daemon) : Prop :=
  ∃ entries, d.status rfc3339 = .ok (.object entries) ∧
    (∀ key ∈ entries.map Prod.fst, Current d.config key) ∧
    ∀ f ∈ d.runtime.handles, f ∈ entries.map Prod.fst

/-- The reload that this event, if it happens now, brings to its end. -/
def Daemon.ends (d : Daemon) : Event → Option Reload
  | .finalize => match d.pc with
    | .spawning reload [] => some reload
    | _ => none
  | _ => none

/-- No error is left of a flow that the loaded configuration does not have. -/
def LeavesNoError (d : Daemon) (e : Event) : Prop :=
  ∀ reload ∈ d.ends e, ∀ flow ∈ d.lastErrors.keys, Current reload.newConfig flow

instance decidableLeavesNoError (d : Daemon) (e : Event) : Decidable (LeavesNoError d e) :=
  inferInstanceAs (Decidable (∀ reload ∈ d.ends e, _))

/-- The registered flows are those of the configuration that is in force or being put in
force. -/
structure Listed (d : Daemon) : Prop where
  within : d.pc.Within d.config
  known : ∀ (f : String) (h : FlowHandle), d.runtime.handles[f]? = some h →
    ((d.pc.target d.config).find? f).isSome

section Step

variable {crates : Crates} {d d' : Daemon} {e : Event}

theorem Listed.boot (config : Config) (disk : Option State) (now : DateTime)
    (observed : List Observation) : Listed (boot config disk now observed) where
  within := fun _ h => h
  known f h hf := by simp [Supervisor.boot, Runtime.empty] at hf

theorem Listed.step (h : Listed d) (hstep : d.step crates e = some d') : Listed d' := by
  have hchange := Daemon.step_change hstep
  refine ⟨hchange.within h.within, ?_⟩
  have hknown := h.known
  obtain hshrinks | ⟨m, flow, effective, at_, hshrinks, hspawns, heq⟩ := hchange.shrinks_or_spawns
  · generalize d'.runtime = r, d'.pc = pc, d'.config = config at hchange hshrinks ⊢
    cases hload : e.loads with
    | none =>
      rw [hchange.same_target h.within hload]
      exact fun f x hx => hknown f x (hshrinks.handles f x hx)
    | some new =>
      cases hchange with
      | frame => exact hknown
      | @reload newConfig deadline hpc =>
        -- what a reload keeps registered is in the new configuration as well
        intro f x hx
        have hplan := planned crates d.config newConfig d.runtime
        have hkeep := ((hplan.handles f x).mp hx).2
        obtain ⟨-, of, nf, -, hnew, -⟩ := (hplan.toKeep f).mp hkeep
        exact Option.isSome_iff_exists.mpr ⟨nf, hnew⟩
      | _ => cases hload
  · have hmem := (Daemon.spawns_mem hspawns h.within).1
    rw [hchange.same_target h.within (Daemon.loads_of_spawns hspawns), heq]
    intro f x hx
    rw [Runtime.lookup_addPair_handles] at hx
    split at hx
    case isTrue hname => exact hname ▸ Option.isSome_iff_exists.mpr ⟨_, Config.find?_eq_some hmem⟩
    case isFalse => exact hknown f x (hshrinks.handles f x hx)

theorem Daemon.ends_eq_some {reload : Reload} (h : d.ends e = some reload) :
    e = .finalize ∧ d.pc = .spawning reload [] := by
  unfold ends at h
  split at h
  case h_1 =>
    split at h
    case h_1 hpc => cases h; exact ⟨rfl, hpc⟩
    case h_2 => cases h
  case h_2 => cases h

variable {rfc3339 : DateTime → String}

/-- The keys of the reply. -/
theorem Daemon.status_eq (rfc3339 : DateTime → String) (hunpoisoned : d.writer.mirror.poisoned = false) :
    ∃ entries, d.status rfc3339 = .ok (.object entries) ∧
      ∀ key, key ∈ entries.map Prod.fst ↔ key ∈ d.flowNames ∨ key ∈ d.lastErrors := by
  have hstatus : d.status rfc3339 = .ok (.object (Control.renderAll rfc3339 d.flowNames
      d.writer.mirror.value.flows d.lastErrors).toList) :=
    if_neg (by rw [hunpoisoned]; exact Bool.false_ne_true)
  refine ⟨_, hstatus, fun key => ?_⟩
  rw [ExtTreeMap.map_fst_toList_eq_keys, ExtTreeMap.mem_keys]
  exact Control.mem_renderAll

theorem current_reloadKey (config : Config) : Current config RELOAD_SYNTHETIC_KEY :=
  .inr (by decide)

theorem Daemon.step_ends {reload : Reload} (hends : d.ends e = some reload)
    (hstep : d.step crates e = some d') :
    d'.config = d.config ∧ d'.runtime = d.runtime ∧ d'.writer = d.writer ∧
      d'.flowNames = d.runtime.handles.keys ∧
      d'.lastErrors = d.lastErrors.erase RELOAD_SYNTHETIC_KEY := by
  obtain ⟨rfl, hpc⟩ := ends_eq_some hends
  simp only [step, hpc, Option.some.injEq] at hstep
  subst hstep
  exact ⟨rfl, rfl, rfl, rfl, rfl⟩

theorem Listed.listsCurrent_iff {reload : Reload} (h : Listed d)
    (hunpoisoned : d.writer.mirror.poisoned = false) (hends : d.ends e = some reload)
    (hstep : d.step crates e = some d') :
    ListsCurrent rfc3339 d' ↔ ∀ flow ∈ d.lastErrors.keys, Current reload.newConfig flow := by
  obtain ⟨hconfig, hruntime, hwriter, hnames, herrors⟩ := Daemon.step_ends hends hstep
  obtain ⟨hwithin, hknown⟩ := h
  rw [(Daemon.ends_eq_some hends).2] at hwithin hknown
  obtain ⟨entries, hstatus, hkeys⟩ := Daemon.status_eq rfc3339 (hwriter ▸ hunpoisoned)
  have hentries : ∀ key, key ∈ entries.map Prod.fst ↔ key ∈ d.runtime.handles ∨
      key ∈ d.lastErrors ∧ key ≠ RELOAD_SYNTHETIC_KEY := by
    intro key
    rw [hkeys, hnames, herrors, ExtTreeMap.mem_keys, ExtTreeMap.mem_erase, ne_eq,
      Std.compare_eq_iff_eq, eq_comm (b := key), and_comm]
  rw [ListsCurrent, hconfig, hruntime, hwithin.1]
  constructor
  · rintro ⟨entries', hstatus', hcurrent, -⟩ flow hflow
    obtain rfl : entries = entries' := Json.object.inj (Except.ok.inj (hstatus.symm.trans hstatus'))
    by_cases hreload : flow = RELOAD_SYNTHETIC_KEY
    · exact hreload ▸ current_reloadKey reload.newConfig
    · exact hcurrent flow ((hentries flow).mpr (.inr ⟨ExtTreeMap.mem_keys.mp hflow, hreload⟩))
  · intro hcurrent
    refine ⟨entries, hstatus, fun key hkey => ?_, fun f hf => (hentries f).mpr (.inl hf)⟩
    obtain hregistered | ⟨herror, -⟩ := (hentries key).mp hkey
    · exact .inl (hknown key _ (ExtTreeMap.getElem?_eq_some_getElem hregistered))
    · exact hcurrent key (ExtTreeMap.mem_keys.mpr herror)

namespace Daemon

/-- The flows for which this event, if it happens now, records an error that no setup met. -/
def blames (d : Daemon) : Event → List String
  | .taskError flow (some _) => [flow]
  | .joinNext id => match d.runtime.joinNext? id with
    | some (_, joined, r) => ((r.handleFlowExit joined).2.map Prod.fst).toList
    | none => []
  | _ => []

theorem mem_recordLastError {errors : LastErrors} {flow kind message name : String}
    {retryAt : Option DateTime} {now : DateTime} :
    name ∈ recordLastError errors flow kind message retryAt now ↔ name = flow ∨ name ∈ errors := by
  rw [recordLastError, ExtTreeMap.mem_insert, Std.compare_eq_iff_eq, eq_comm]

theorem send?_lastErrors {u : StateUpdate} (h : d.send? u = some d') :
    d'.lastErrors = d.lastErrors := by
  unfold send? at h
  obtain ⟨queue, -, rfl⟩ := Option.map_eq_some_iff.mp h
  rfl

theorem mem_lastErrors_spawnFlow {flow : FlowConfig} {setup : Setup} {name : String}
    (h : name ∈ (d.spawnFlow crates flow setup).lastErrors) :
    name ∈ d.lastErrors ∨ name = flow.name := by
  cases setup with
  | ready => exact .inl h
  | notifierFailed error => exact (mem_recordLastError.mp h).symm
  | credentialFailed error => exact (mem_recordLastError.mp h).symm

theorem mem_lastErrors_handleFlowExit {joined : Except JoinError FlowExit} {name : String}
    (h : name ∈ (d.handleFlowExit joined).lastErrors) :
    name ∈ d.lastErrors ∨ name ∈ ((d.runtime.handleFlowExit joined).2.map Prod.fst).toList := by
  unfold handleFlowExit at h
  generalize d.runtime.handleFlowExit joined = x at h ⊢
  obtain ⟨runtime, _ | ⟨flow, message⟩⟩ := x
  · exact .inl h
  · obtain rfl | h := mem_recordLastError.mp h
    · exact .inr (List.mem_singleton_self _)
    · exact .inl h

theorem mem_lastErrors_handleRespawnRequest {req : RespawnRequest} {setup : Setup} {name : String}
    (h : name ∈ (d.handleRespawnRequest crates req setup).lastErrors) :
    name ∈ d.lastErrors ∨ Current d.config name := by
  unfold handleRespawnRequest at h
  split at h
  case isTrue => exact .inl h
  case isFalse =>
    simp only at h
    split at h
    case isTrue => exact .inl h
    case isFalse =>
      split at h
      case h_1 => exact .inl h
      case h_2 flow hfind =>
        split at h
        case isTrue =>
          apply (mem_lastErrors_spawnFlow h).imp_right
          rintro rfl
          exact .inl (Option.isSome_iff_exists.mpr
            ⟨flow, Config.find?_eq_some (Config.mem_of_find? hfind).1⟩)
        case isFalse => exact .inl h

theorem mem_lastErrors_spawnNewGeneration {reload : Reload} {flow : FlowConfig}
    {rest : List FlowConfig} {setup : Setup} {name : String}
    (h : name ∈ (d.spawnNewGeneration crates reload flow rest setup).lastErrors) :
    name ∈ d.lastErrors ∨ name = flow.name := by
  unfold spawnNewGeneration at h
  split at h
  case isTrue => exact .inl h
  case isFalse => exact mem_lastErrors_spawnFlow (d := d.releaseRespawn flow.name) h

theorem current_of_mem {config : Config} {flow : FlowConfig} {name : String}
    (hmem : flow ∈ config.flow) (hname : name = flow.name) : Current config name :=
  .inl (Option.isSome_iff_exists.mpr ⟨flow, hname ▸ Config.find?_eq_some hmem⟩)

theorem mem_lastErrors_step {name : String} (hwithin : d.pc.Within d.config)
    (hstep : d.step crates e = some d') (hname : name ∈ d'.lastErrors) :
    name ∈ d.lastErrors ∨ name ∈ d.blames e ∨ Current (d.pc.target d.config) name := by
  cases e with
  | tick elapsed => cases hstep; exact .inl hname
  | finish id ending =>
    obtain ⟨r, -, rfl⟩ := Option.map_eq_some_iff.mp hstep
    exact .inl hname
  | observe id update =>
    obtain ⟨t, -, hstep⟩ := Option.bind_eq_some_iff.mp hstep
    obtain ⟨-, hstep⟩ := Option.ite_none_right_eq_some.mp hstep
    obtain ⟨m, hm, rfl⟩ := Option.map_eq_some_iff.mp hstep
    exact .inl (send?_lastErrors hm ▸ hname)
  | runUpdate update =>
    obtain ⟨-, hstep⟩ := Option.ite_none_right_eq_some.mp hstep
    exact .inl (send?_lastErrors hstep ▸ hname)
  | taskError flow entry =>
    cases hstep
    cases entry with
    | none => exact .inl (ExtTreeMap.mem_of_mem_erase hname)
    | some entry =>
      obtain hflow | hname := ExtTreeMap.mem_insert.mp hname
      · exact .inr (.inl (List.mem_singleton.mpr (Std.compare_eq_iff_eq.mp hflow).symm))
      · exact .inl hname
  | writerReceive count =>
    obtain ⟨writer, -, rfl⟩ := Option.map_eq_some_iff.mp hstep
    exact .inl hname
  | writer e =>
    simp only [step, writerStep] at hstep
    split at hstep
    · cases hstep
    · cases hstep
    · obtain ⟨writer, -, rfl⟩ := Option.map_eq_some_iff.mp hstep
      exact .inl hname
  | watcherFires index =>
    obtain ⟨w, -, hstep⟩ := Option.bind_eq_some_iff.mp hstep
    obtain ⟨-, hstep⟩ := Option.ite_none_right_eq_some.mp hstep
    obtain ⟨queue, -, rfl⟩ := Option.map_eq_some_iff.mp hstep
    exact .inl hname
  | joinNext id =>
    simp only [step] at hstep
    split at hstep
    · obtain ⟨⟨t, joined, r⟩, hjoin, rfl⟩ := Option.map_eq_some_iff.mp hstep
      refine (mem_lastErrors_handleFlowExit hname).imp_right fun hblamed => .inl ?_
      simp only [blames, hjoin]
      exact hblamed
    · cases hstep
  | respawn setup =>
    simp only [step] at hstep
    split at hstep
    case h_1 hpc =>
      obtain ⟨⟨req, queue⟩, -, rfl⟩ := Option.map_eq_some_iff.mp hstep
      rw [hpc]
      exact (mem_lastErrors_handleRespawnRequest hname).imp_right .inr
    case h_2 => cases hstep
  | reload loaded =>
    simp only [step] at hstep
    split at hstep
    case h_1 =>
      cases hstep
      cases loaded with
      | ok newConfig => exact .inl hname
      | error message =>
        obtain rfl | hname := mem_recordLastError.mp hname
        · exact .inr (.inr (current_reloadKey _))
        · exact .inl hname
    case h_2 => cases hstep
  | drainJoin id =>
    simp only [step] at hstep
    split at hstep
    case h_1 =>
      obtain ⟨-, hstep⟩ := Option.ite_none_right_eq_some.mp hstep
      obtain ⟨_, -, rfl⟩ := Option.map_eq_some_iff.mp hstep
      exact .inl hname
    case h_2 => cases hstep
  | drainDone | drainTimeout =>
    simp only [step] at hstep
    split at hstep
    case h_1 =>
      obtain ⟨-, rfl⟩ := Transition.guard_eq_some.mp hstep
      exact .inl hname
    case h_2 => cases hstep
  | emit =>
    simp only [step] at hstep
    split at hstep
    case h_1 =>
      obtain ⟨m, hm, rfl⟩ := Option.map_eq_some_iff.mp hstep
      exact .inl (send?_lastErrors hm ▸ hname)
    case h_2 => cases hstep
  | pushConfig =>
    simp only [step] at hstep
    split at hstep
    case h_1 => cases hstep; exact .inl hname
    case h_2 => cases hstep
  | spawnNext setup =>
    simp only [step] at hstep
    split at hstep
    case h_1 flow rest hpc =>
      rw [hpc] at hwithin ⊢
      split at hstep
      · cases hstep
        exact (mem_lastErrors_spawnFlow hname).imp_right fun hflow =>
          .inr (current_of_mem (hwithin flow List.mem_cons_self) hflow)
      · cases hstep
        exact .inl hname
    case h_2 reload flow rest hpc =>
      rw [hpc] at hwithin ⊢
      cases hstep
      exact (mem_lastErrors_spawnNewGeneration hname).imp_right fun hflow =>
        .inr (current_of_mem (hwithin.1 ▸ hwithin.2 flow List.mem_cons_self) hflow)
    case h_3 => cases hstep
  | finalize =>
    simp only [step] at hstep
    split at hstep
    case h_1 => cases hstep; exact .inl hname
    case h_2 => cases hstep; exact .inl (ExtTreeMap.mem_of_mem_erase hname)
    case h_3 => cases hstep

end Daemon

/-- Errors are recorded for flows of the configuration that is in force or being put in force,
and no flow with an error is dropped. -/
def KeepsErrors (d : Daemon) (e : Event) : Prop :=
  (∀ flow ∈ d.blames e, Current (d.pc.target d.config) flow) ∧
    ∀ new ∈ e.loads, ∀ flow ∈ d.lastErrors.keys, Current new flow

structure Blamed (d : Daemon) : Prop where
  within : d.pc.Within d.config
  current : ∀ flow ∈ d.lastErrors, Current (d.pc.target d.config) flow

theorem Blamed.step (h : Blamed d) (hkeeps : KeepsErrors d e) (hstep : d.step crates e = some d') :
    Blamed d' := by
  have hchange := Daemon.step_change hstep
  refine ⟨hchange.within h.within, fun flow hflow => ?_⟩
  have hold := Daemon.mem_lastErrors_step h.within hstep hflow
  cases hload : e.loads with
  | none =>
    rw [hchange.same_target h.within hload]
    obtain hrecorded | hblamed | hcurrent := hold
    · exact h.current flow hrecorded
    · exact hkeeps.1 flow hblamed
    · exact hcurrent
  | some new =>
    obtain rfl : e = .reload (.ok new) := by
      unfold Event.loads at hload
      split at hload
      case h_1 => cases hload; rfl
      case h_2 => cases hload
    simp only [Daemon.step] at hstep
    split at hstep
    case h_1 =>
      cases hstep
      exact hkeeps.2 new rfl flow (ExtTreeMap.mem_keys.mpr hflow)
    case h_2 => cases hstep

theorem Blamed.leavesNoError (h : Blamed d) : LeavesNoError d e := by
  intro reload hends flow hflow
  have hcurrent := h.current flow (ExtTreeMap.mem_keys.mp hflow)
  rw [(Daemon.ends_eq_some hends).2] at hcurrent
  exact hcurrent

end Step

section Runs

variable (crates : Crates) (rfc3339 : DateTime → String)

def ListsAfterReloads (d : Daemon) (events : List Event) : Prop :=
  ∀ pre e m d', pre ++ [e] <+: events → Transition.run (Daemon.step crates) d pre = some m →
    m.step crates e = some d' → ∀ reload ∈ m.ends e, ListsCurrent rfc3339 d'

/-- For every run of the supervisor, its tasks and the writer: the status lists only current
flows, and every running one, after each of its reloads exactly if no reload ends with an
error left of a flow it removed; and so it is where no flow with an error is dropped and
none is blamed that is not configured. -/
theorem status_lists_current_iff (config : Config) (disk : Option State) (now : DateTime)
    (observed : List Observation) (events : List Event) (d : Daemon)
    (hrun : Transition.run (Daemon.step crates) (boot config disk now observed) events = some d) :
    (ListsAfterReloads crates rfc3339 (boot config disk now observed) events ↔
      Transition.Along (Daemon.step crates) LeavesNoError (boot config disk now observed) events) ∧
    (Transition.Along (Daemon.step crates) KeepsErrors (boot config disk now observed) events →
      ListsAfterReloads crates rfc3339 (boot config disk now observed) events) := by
  have hlists : ListsAfterReloads crates rfc3339 (boot config disk now observed) events ↔
      Transition.Along (Daemon.step crates) LeavesNoError (boot config disk now observed) events := by
    refine Transition.after_iff_along (C := LeavesNoError)
      (I := fun d => Listed d ∧ Delivers (Writer.loadOrInit disk) d.stream)
      (Q := fun m e d' => ∀ reload ∈ m.ends e, ListsCurrent rfc3339 d') ?_ ?_
      ⟨.boot config disk now observed, .boot config disk now observed⟩ hrun
    · intro s e t h hstep
      exact ⟨h.1.step hstep, h.2.traffic (Daemon.step_traffic hstep)⟩
    · intro s e t h hstep
      apply forall₂_congr
      intro reload hends
      exact h.1.listsCurrent_iff h.2.mirror.unpoisoned hends hstep
  refine ⟨hlists, fun hkeeps => hlists.mpr ?_⟩
  refine hkeeps.imp (I := Blamed) (fun s e t h hkeeps hstep => h.step hkeeps hstep)
    (fun s e h _ => h.leavesNoError) ⟨fun _ h => h, fun flow hflow => ?_⟩
  exact absurd hflow ExtTreeMap.not_mem_empty

end Runs

def epochRfc3339 (_ : DateTime) : String := "1970-01-01T00:00:00+00:00"

/-- A flow whose poll failed is restarted on another ref, still with its error. -/
def restartFailing : List Event :=
  [.spawnNext .ready, .finalize,
    .taskError "linux" (some ⟨0, "git_poll_failed", "connection reset", none⟩),
    .reload (.ok (oneFlow (kernelFlow "linux" "linux.git" "refs/heads/next"))),
    .finish (0, .poll) .returned, .finish (0, .dispatcher) .returned, .drainJoin (0, .poll),
    .drainJoin (0, .dispatcher), .drainDone, .pushConfig, .spawnNext .ready, .finalize]

theorem failing_flow_listed : ListsAfterReloads kernelCrates epochRfc3339
    (boot (oneFlow (kernelFlow "linux" "linux.git" "refs/heads/master")) none 0 []) restartFailing :=
  (status_lists_current_iff kernelCrates epochRfc3339
    (oneFlow (kernelFlow "linux" "linux.git" "refs/heads/master")) none 0 [] restartFailing _
    (Option.some_get (by decide +kernel)).symm).1.mpr (by decide +kernel)

/-- The credential of a flow is not found, and a reload puts another flow in its place. -/
def removeFailing : List Event :=
  [.spawnNext (.credentialFailed "credential not found"), .finalize,
    .reload (.ok (oneFlow (kernelFlow "stable" "stable.git" "refs/heads/master"))),
    .drainDone, .emit, .pushConfig, .spawnNext .ready]

/-- The removed flow is still listed, as one that has failed. -/
theorem removed_flow_listed :
    ¬ ∀ (crates : Crates) (rfc3339 : DateTime → String) (config : Config) (disk : Option State)
      (now : DateTime) (observed : List Observation) (events : List Event) (d : Daemon),
      Transition.run (Daemon.step crates) (boot config disk now observed) events = some d →
        ListsAfterReloads crates rfc3339 (boot config disk now observed) events := by
  intro h
  obtain ⟨m, hm, hends, d, hd, herror, hpoisoned, hcurrent⟩ :
      ∃ m ∈ Transition.run (Daemon.step kernelCrates)
        (boot (oneFlow (kernelFlow "linux" "linux.git" "refs/heads/master")) none 0 []) removeFailing,
        (m.ends .finalize).isSome ∧ ∃ d ∈ m.step kernelCrates .finalize,
          "linux" ∈ d.lastErrors ∧ d.writer.mirror.poisoned = false ∧ ¬ Current d.config "linux" := by
    decide +kernel
  have hrun := Transition.run_append_eq_some.mpr
    ⟨m, hm, Transition.run_cons_eq_some.mpr ⟨d, hd, (rfl : Transition.run _ d [] = some d)⟩⟩
  obtain ⟨reload, hends⟩ := Option.isSome_iff_exists.mp hends
  obtain ⟨entries, hstatus, hlisted, -⟩ := h kernelCrates epochRfc3339 _ none 0 [] _ d hrun
    removeFailing .finalize m d (List.prefix_refl _) hm hd reload hends
  obtain ⟨entries', hstatus', hkeys⟩ := Daemon.status_eq epochRfc3339 hpoisoned
  obtain rfl : entries' = entries := Json.object.inj (Except.ok.inj (hstatus'.symm.trans hstatus))
  exact hcurrent (hlisted "linux" ((hkeys "linux").mpr (.inr herror)))

end Gcit.Supervisor
