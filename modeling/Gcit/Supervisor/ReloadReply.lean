import Gcit.Supervisor.Sharing

/-! # The reply to a reload command

The supervisor serves a `Reload` command inside one arm of its select loop: it runs
the reload to its end and then answers. The answer is the same whether the file
could be loaded or not.
-/

namespace Gcit.Supervisor

open Std Gcit Gcit.Poll Gcit.Library

/-- The supervisor with the replies it has sent to `Reload` commands. -/
structure ServedDaemon where
  pooled : PooledDaemon
  /-- A `Reload` command is being served. -/
  serving : Bool
  replies : List (Except String Json)

inductive ServedEvent where
  | command (loaded : Except String Config)
  | reply
  | other (e : PooledEvent)

/-- The events that are arms of the select loop. -/
def PooledEvent.isArm : PooledEvent → Bool
  | .daemon (.joinNext _) | .daemon (.reload _) | .respawn _ => true
  | _ => false

namespace ServedDaemon

variable (crates : Crates)

def reloadBody (r : Runtime) : Json :=
  .object [("flows", .number (r.handles.size : Nat)), ("result", .string "reload completed")]

/-- The two halves of the `Reload` arm of `handle_control_command` and everything else
that happens, which is no other arm while one is being served. -/
def step (s : ServedDaemon) : ServedEvent → Option ServedDaemon
  | .command loaded =>
    if s.serving then none
    else (s.pooled.step crates (.daemon (.reload loaded))).map fun p =>
      { s with pooled := p, serving := true }
  | .reply =>
    if s.serving ∧ s.pooled.daemon.pc = .select then
      some { s with
        serving := false
        replies := s.replies ++ [.ok (reloadBody s.pooled.daemon.runtime)] }
    else none
  | .other e =>
    if s.serving ∧ e.isArm then none
    else (s.pooled.step crates e).map fun p => { s with pooled := p }

/-- The next reply after the command tells whether the loaded configuration, which is
then in force, was loaded at all. -/
def AnswersTruthfully (s : ServedDaemon) (loaded : Except String Config) : Prop :=
  ∀ mid m t, .reply ∉ mid → Transition.run (step crates) s (.command loaded :: mid) = some m →
    m.step crates .reply = some t → ∃ r, t.replies = s.replies ++ [r] ∧
      (r.isOk ↔ ∃ new, loaded = .ok new ∧ t.pooled.daemon.config = new)

variable {crates} {s t : ServedDaemon} {loaded : Except String Config}

theorem step_failed {message : String} (h : s.step crates (.command (.error message)) = some t) :
    t.pooled = { s.pooled with
      daemon := { s.pooled.daemon with
        lastErrors := recordLastError s.pooled.daemon.lastErrors RELOAD_SYNTHETIC_KEY
          "config_reload" message none s.pooled.daemon.now } } ∧
      t.replies = s.replies := by
  simp only [step] at h
  obtain ⟨-, h⟩ := Option.ite_none_left_eq_some.mp h
  obtain ⟨p, hp, rfl⟩ := Option.map_eq_some_iff.mp h
  simp only [PooledDaemon.step] at hp
  obtain ⟨d, hd, rfl⟩ := Option.map_eq_some_iff.mp hp
  simp only [Daemon.step] at hd
  split at hd
  · cases hd
    exact ⟨rfl, rfl⟩
  · cases hd

/-- While the command is served, everything works towards the loaded configuration. -/
structure Serving (new : Config) (replies : List (Except String Json)) (s : ServedDaemon) :
    Prop where
  serving : s.serving = true
  replies : s.replies = replies
  within : s.pooled.daemon.pc.Within s.pooled.daemon.config
  target : s.pooled.daemon.pc.target s.pooled.daemon.config = new

theorem serving_of_command {new : Config} (hpc : s.pooled.daemon.pc = .select)
    (h : s.step crates (.command (.ok new)) = some t) : Serving new s.replies t := by
  simp only [step] at h
  obtain ⟨-, h⟩ := Option.ite_none_left_eq_some.mp h
  obtain ⟨p, hp, rfl⟩ := Option.map_eq_some_iff.mp h
  simp only [PooledDaemon.step] at hp
  obtain ⟨d, hd, rfl⟩ := Option.map_eq_some_iff.mp hp
  simp only [Daemon.step, hpc, Option.some.injEq] at hd
  subst hd
  exact ⟨rfl, rfl, trivial, rfl⟩

theorem pooled_step_daemon {p p' : PooledDaemon} {e : PooledEvent} (harm : ¬ e.isArm)
    (h : p.step crates e = some p') :
    ∃ e', p.daemon.step crates e' = some p'.daemon ∧ e'.loads = none := by
  have hspawn : ∀ event env, (∀ setup, Event.loads (event setup) = none) →
      p.spawnFlow crates event env = some p' →
      ∃ e', p.daemon.step crates e' = some p'.daemon ∧ e'.loads = none := by
    intro event env hload h
    unfold PooledDaemon.spawnFlow at h
    split at h
    · obtain ⟨d, hd, rfl⟩ := Option.map_eq_some_iff.mp h
      exact ⟨_, hd, hload _⟩
    · split at h
      · obtain ⟨d, hd, rfl⟩ := Option.map_eq_some_iff.mp h
        exact ⟨_, hd, hload _⟩
      · obtain ⟨d, hd, rfl⟩ := Option.map_eq_some_iff.mp h
        exact ⟨_, hd, hload _⟩
  unfold PooledDaemon.step at h
  split at h
  · cases h
  · cases h
  · next e _ _ =>
    obtain ⟨d, hd, rfl⟩ := Option.map_eq_some_iff.mp h
    refine ⟨e, hd, ?_⟩
    cases e with
    | reload loaded => exact absurd rfl harm
    | _ => rfl
  · exact hspawn _ _ (fun _ => rfl) h
  · exact hspawn _ _ (fun _ => rfl) h

theorem Serving.step {new : Config} {replies : List (Except String Json)} {e : ServedEvent}
    (h : Serving new replies s) (he : e ≠ .reply) (hstep : s.step crates e = some t) :
    Serving new replies t := by
  cases e with
  | command loaded =>
    simp only [ServedDaemon.step, h.serving, if_true] at hstep
    cases hstep
  | reply => exact absurd rfl he
  | other e =>
    simp only [ServedDaemon.step, h.serving, true_and] at hstep
    obtain ⟨harm, hstep⟩ := Option.ite_none_left_eq_some.mp hstep
    obtain ⟨p, hp, rfl⟩ := Option.map_eq_some_iff.mp hstep
    obtain ⟨e', hd, hload⟩ := pooled_step_daemon harm hp
    have hchange := Daemon.step_change hd
    exact ⟨rfl, h.replies, hchange.within h.within,
      (hchange.same_target h.within hload).trans h.target⟩

theorem Serving.run {new : Config} {replies : List (Except String Json)} {mid : List ServedEvent}
    (h : Serving new replies s) (hmid : .reply ∉ mid)
    (hrun : Transition.run (ServedDaemon.step crates) s mid = some t) : Serving new replies t :=
  Transition.invariant_along (C := fun _ e => e ≠ .reply)
    (fun _ _ _ h he hstep => h.step he hstep) h
    (Transition.along_of_forall fun e he _ => by
      rintro rfl
      exact hmid he) hrun

theorem step_reply (h : s.step crates .reply = some t) :
    s.pooled.daemon.pc = .select ∧ t.pooled = s.pooled ∧
      t.replies = s.replies ++ [.ok (reloadBody s.pooled.daemon.runtime)] := by
  obtain ⟨⟨-, hpc⟩, rfl⟩ := Transition.guard_eq_some.mp h
  exact ⟨hpc, rfl, rfl⟩

theorem answersTruthfully_ok {new : Config} (hpc : s.pooled.daemon.pc = .select) :
    s.AnswersTruthfully crates (.ok new) := by
  intro mid m t hmid hrun hreply
  obtain ⟨s', hcommand, hrest⟩ := Transition.run_cons_eq_some.mp hrun
  obtain ⟨-, hreplies, -, htarget⟩ := (serving_of_command hpc hcommand).run hmid hrest
  obtain ⟨hselect, hpooled, hsent⟩ := step_reply hreply
  rw [hselect] at htarget
  refine ⟨_, by rw [hsent, hreplies], ?_⟩
  exact ⟨fun _ => ⟨new, rfl, by rw [hpooled]; exact htarget⟩, fun _ => rfl⟩

theorem command_enabled (hserving : s.serving = false) (hpc : s.pooled.daemon.pc = .select) :
    ∃ t, s.step crates (.command loaded) = some t ∧ t.serving = true := by
  simp [step, hserving, PooledDaemon.step, Daemon.step, hpc]

theorem not_answersTruthfully_error {message : String} (hserving : s.serving = false)
    (hpc : s.pooled.daemon.pc = .select) : ¬ s.AnswersTruthfully crates (.error message) := by
  intro h
  obtain ⟨m, hm, hserved⟩ : ∃ m, s.step crates (.command (.error message)) = some m ∧
      m.serving = true := command_enabled hserving hpc
  obtain ⟨hpooled, -⟩ := step_failed hm
  have hselect : m.pooled.daemon.pc = .select := by rw [hpooled]; exact hpc
  obtain ⟨r, hr, hok⟩ := h [] m _ List.not_mem_nil (Transition.run_cons_eq_some.mpr ⟨m, hm, rfl⟩)
    (Transition.guard_eq_some.mpr ⟨⟨hserved, hselect⟩, rfl⟩)
  obtain ⟨-, hr⟩ := List.append_inj' hr rfl
  obtain rfl := List.singleton_inj.mp hr
  obtain ⟨new, hnew, -⟩ := hok.mp rfl
  cases hnew

end ServedDaemon

/-- For every outcome of loading the file and every state of the supervisor in its
select loop: the reply tells the truth exactly if the file was loaded, and a load that
fails changes nothing but the entry under `(reload)`. -/
theorem reload_reply_truthful_iff (crates : Crates) (s : ServedDaemon)
    (loaded : Except String Config) (hserving : s.serving = false)
    (hpc : s.pooled.daemon.pc = .select) :
    (s.AnswersTruthfully crates loaded ↔ loaded.isOk) ∧
    ∀ message t, loaded = .error message → s.step crates (.command loaded) = some t →
      t.pooled = { s.pooled with
        daemon := { s.pooled.daemon with
          lastErrors := recordLastError s.pooled.daemon.lastErrors RELOAD_SYNTHETIC_KEY
            "config_reload" message none s.pooled.daemon.now } } := by
  constructor
  · cases loaded with
    | ok new => exact ⟨fun _ => rfl, fun _ => ServedDaemon.answersTruthfully_ok hpc⟩
    | error message =>
      refine ⟨fun h => ?_, nofun⟩
      exact absurd h (ServedDaemon.not_answersTruthfully_error hserving hpc)
  · rintro message t rfl hstep
    exact (ServedDaemon.step_failed hstep).1

def servedKernel : ServedDaemon where
  pooled :=
    ((Transition.run (PooledDaemon.step kernelCrates)
      (.boot (oneFlow (kernelFlow "linux" "linux.git" "refs/heads/master")) none 0 [] none)
      [.spawnNext oneSecret, .daemon .finalize]).get (by decide +kernel))
  serving := false
  replies := []

theorem served_reload_truthful :
    servedKernel.AnswersTruthfully kernelCrates
      (.ok (oneFlow (kernelFlow "linux" "linux.git" "refs/heads/next"))) :=
  (reload_reply_truthful_iff kernelCrates servedKernel _ rfl (by decide +kernel)).1.mpr rfl

/-- The file is not TOML, and the command is answered with `reload completed`. -/
theorem failed_reload_completed :
    ¬ servedKernel.AnswersTruthfully kernelCrates
      (.error "/etc/gcit/config.toml:1: invalid array") ∧
    ∃ t, Transition.run (ServedDaemon.step kernelCrates) servedKernel
        [.command (.error "/etc/gcit/config.toml:1: invalid array"), .reply] = some t ∧
      t.replies =
        [.ok (.object [("flows", .number 1), ("result", .string "reload completed")])] := by
  refine ⟨?_, _, (Option.some_get (by decide +kernel)).symm, by decide +kernel⟩
  exact ServedDaemon.not_answersTruthfully_error rfl (by decide +kernel)

end Gcit.Supervisor
