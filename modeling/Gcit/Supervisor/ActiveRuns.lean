import Gcit.Flow.Monitor
import Gcit.Flow.Retries
import Gcit.State.Runs
import Gcit.Supervisor.Seeds

/-! # Who watches the active runs

The daemon together with the calls of its dispatchers and the tasks that watch
the started runs, over restarts. A run leaves `active_runs` only by the
`RunFinished` of its task or with its flow, so a run is listed without a watcher
as soon as a task ends in any other way, or a new process loads the list.
-/

namespace Gcit.Supervisor

open Std Gcit Gcit.Git Gcit.Poll Gcit.Library Gcit.Library.Channel Gcit.Github Gcit.Flow

def Task.buildDispatchParams (t : Task) (client : Client) : FlowDispatchParams where
  flowName := t.flow
  flowDescription := t.config.description
  url := t.config.source.url
  refName := t.config.source.refName
  action := t.config.action
  jobInterval := t.effective.jobInterval
  client := client

def Daemon.dispatcherTask? (d : Daemon) (id : Token × FlowRole) : Option Task :=
  d.runtime.joinSet.find? fun t => t.id == id && t.role == .dispatcher && t.ending == none

/-- A monitor task and the dispatcher whose join set it is in. -/
structure Watch where
  owner : Token
  task : MonitorTask

structure Process where
  daemon : Daemon
  /-- The state that this process found on disk. -/
  loaded : State
  watches : List Watch

inductive ProcessEvent where
  | daemon (e : Event)
  | trigger (id : Token × FlowRole) (client : Client) (signal : TriggerSignal) (env : TriggerEnv)
  | sourceEnds (index : Nat) (cycles : List MonitorCycle)
  | sourcePanics (index : Nat)
  | report (index : Nat)
  | reportLost (index : Nat)
  | close (index : Nat)
  | abort (index : Nat)
  | restart (config : Config) (now : DateTime)

namespace Process

def start (config : Config) (disk : Option State) (now : DateTime) (observed : List Observation) :
    Process :=
  ⟨boot config disk now observed, Writer.loadOrInit disk, []⟩

/-- Updates about runs come from the calls and the monitor tasks, and a
dispatcher that ends has no monitor task left: it joined or aborted them. -/
def admits (p : Process) : Event → Bool
  | .runUpdate _ => false
  | .finish (token, .dispatcher) _ => p.watches.all fun w => w.owner != token
  | _ => true

def update (p : Process) (index : Nat) (w : Watch) (pc : MonitorPc) : Process :=
  { p with watches := p.watches.set index { w with task.pc := pc } }

def drop (p : Process) (index : Nat) : Process := { p with watches := p.watches.eraseIdx index }

variable (crates : Crates) (dispatch : DispatchCrates)

/-- Once `emit_run_started` has sent the update, the call spawns the monitor
without another wait. -/
def afterHandled (p : Process) (t : Task) (handled : Handled) : Option Process :=
  match handled.update, handled.monitor with
  | some u, some params => (p.daemon.step crates (.runUpdate u)).map fun d =>
    { p with daemon := d, watches := p.watches ++ [⟨t.token, ⟨params, .watching⟩⟩] }
  | _, _ => match handled.result with
    | .ok () => some p
    | .error e =>
      let lastErrors :=
        recordLastError p.daemon.lastErrors t.flow e.kind e.message e.retryAt p.daemon.now
      some { p with daemon.lastErrors := lastErrors }

def step (p : Process) : ProcessEvent → Option Process
  | .daemon e =>
    if p.admits e then (p.daemon.step crates e).map fun d => { p with daemon := d } else none
  | .trigger id client signal env => (p.daemon.dispatcherTask? id).bind fun t =>
    (handleTrigger dispatch (t.buildDispatchParams client) signal env).bind fun handled =>
      p.afterHandled crates t handled
  | .sourceEnds index cycles => (p.watches[index]?).bind fun w =>
    if w.task.pc = .watching then
      (monitorRun dispatch.http w.task.ghParams cycles).map fun (events, _) =>
        match afterEvents events p.daemon.now with
        | some pc => p.update index w pc
        | none => p.drop index
    else none
  | .sourcePanics index => (p.watches[index]?).bind fun w =>
    if w.task.pc = .watching then some (p.drop index) else none
  | .report index => (p.watches[index]?).bind fun w => match w.task.pc with
    | .reporting conclusion completedAt =>
      (p.daemon.step crates (.runUpdate (.runFinished w.task.params.flowName w.task.params.runId
        conclusion completedAt))).map fun d => { p with daemon := d }.update index w .closing
    | _ => none
  | .reportLost index => (p.watches[index]?).bind fun w => match w.task.pc with
    | .reporting .. => some (p.drop index)
    | _ => none
  | .close index => (p.watches[index]?).bind fun w =>
    if w.task.pc = .closing then some (p.drop index) else none
  | .abort index => (p.watches[index]?).map fun _ => p.drop index
  | .restart config now => some (start config p.daemon.writer.disk now p.daemon.observed)

/-- The monitor task that this event, if it happens now, ends. -/
def ends (p : Process) : ProcessEvent → Option Watch
  | .sourceEnds index cycles => (p.watches[index]?).filter fun w =>
    match monitorRun dispatch.http w.task.ghParams cycles with
    | some (_, outcome) => outcome != .terminated
    | none => false
  | .sourcePanics index | .reportLost index | .close index | .abort index => p.watches[index]?
  | _ => none

/-- The state once everything sent so far is applied. -/
def eventually (p : Process) : State := p.loaded.applyAll p.daemon.sent

def AllApplied (p : Process) : Prop :=
  p.daemon.stateQueue.queue = [] ∧ p.daemon.writer.pc ≠ .apply

end Process

def NoActiveRuns (s : State) : Prop := ∀ entry ∈ s.flows.toList, entry.2.activeRuns = []

instance decidableNoActiveRuns (s : State) : Decidable (NoActiveRuns s) :=
  inferInstanceAs (Decidable (∀ entry ∈ _, _))

def ProcessEvent.restarts : ProcessEvent → Bool
  | .restart .. => true
  | _ => false

/-- A monitor task ends only when the state queue has taken its `RunFinished`, or
its run is not listed any more; a process starts only on a file without active
runs. -/
def SeesThrough (dispatch : DispatchCrates) (p : Process) (e : ProcessEvent) : Prop :=
  (∀ w ∈ p.ends dispatch e, w.task.pc = .closing ∨
    w.task.params.runId ∉ (p.eventually.entry w.task.params.flowName).activeIds) ∧
  (e.restarts = true → NoActiveRuns (Writer.loadOrInit p.daemon.writer.disk))

instance decidableSeesThrough (dispatch : DispatchCrates) (p : Process) (e : ProcessEvent) :
    Decidable (SeesThrough dispatch p e) :=
  inferInstanceAs (Decidable ((∀ w ∈ p.ends dispatch e, _) ∧ (_ → _)))

theorem NoActiveRuns.activeIds_eq {s : State} (h : NoActiveRuns s) (f : String) :
    (s.entry f).activeIds = [] := by
  unfold State.entry
  cases hf : s.flows[f]? with
  | none => rfl
  | some e =>
    have hnone := h (f, e) (ExtTreeMap.mem_toList_iff_getElem?_eq_some.mpr hf)
    simpa [FlowState.activeIds] using hnone

theorem exists_other_index {α : Type} {l : List α} {i : Nat} {a b : α} (ha : l[i]? = some a)
    (hb : b ∈ l) (hne : b ≠ a) : ∃ j, i ≠ j ∧ l[j]? = some b := by
  obtain ⟨j, hj⟩ := List.mem_iff_getElem?.mp hb
  refine ⟨j, ?_, hj⟩
  rintro rfl
  exact hne (Option.some.inj (hj.symm.trans ha))

theorem mem_eraseIdx_of_ne {α : Type} {l : List α} {i : Nat} {a b : α} (ha : l[i]? = some a)
    (hb : b ∈ l) (hne : b ≠ a) : b ∈ l.eraseIdx i := by
  obtain ⟨j, hij, hj⟩ := exists_other_index ha hb hne
  exact List.mem_eraseIdx_iff_getElem?.mpr ⟨j, hij.symm, hj⟩

theorem mem_set_of_ne {α : Type} {l : List α} {i : Nat} {a b : α} (c : α) (ha : l[i]? = some a)
    (hb : b ∈ l) (hne : b ≠ a) : b ∈ l.set i c := by
  obtain ⟨j, hij, hj⟩ := exists_other_index ha hb hne
  exact List.mem_iff_getElem?.mpr ⟨j, (List.getElem?_set_ne hij).trans hj⟩

theorem Daemon.runUpdate_sent {crates : Crates} {d d' : Daemon} {u : StateUpdate}
    (h : d.step crates (.runUpdate u) = some d') : d'.sent = d.sent ++ [u] := by
  simp only [Daemon.step] at h
  obtain ⟨-, hsend⟩ := Option.ite_none_right_eq_some.mp h
  obtain ⟨queue, -, hstream⟩ := Daemon.send?_stream hsend
  exact congrArg Stream.sent hstream

/-- Once everything sent is applied, every active run has a task that is still to report it. -/
structure Tracked (p : Process) : Prop where
  delivers : Delivers p.loaded p.daemon.stream
  nodup : ∀ f, (p.eventually.entry f).activeIds.Nodup
  watched : ∀ f, ∀ id ∈ (p.eventually.entry f).activeIds, ∃ w ∈ p.watches, w.task.Watches f id

namespace Tracked

variable {crates : Crates} {dispatch : DispatchCrates} {p p' : Process} {d : Daemon}

theorem start (config : Config) {disk : Option State} (now : DateTime)
    (observed : List Observation) (h : NoActiveRuns (Writer.loadOrInit disk)) :
    Tracked (.start config disk now observed) where
  delivers := .boot config disk now observed
  nodup f := by
    rw [show (Process.start config disk now observed).eventually = Writer.loadOrInit disk from rfl,
      h.activeIds_eq f]
    exact List.nodup_nil
  watched f id hid := by
    rw [show (Process.start config disk now observed).eventually = Writer.loadOrInit disk from rfl,
      h.activeIds_eq f] at hid
    cases hid

theorem frame (h : Tracked p) (hd : Delivers p.loaded d.stream) (hsent : d.sent = p.daemon.sent) :
    Tracked { p with daemon := d } := by
  have heq : ({ p with daemon := d } : Process).eventually = p.eventually := by
    simp only [Process.eventually, hsent]
  exact ⟨hd, heq ▸ h.nodup, heq ▸ h.watched⟩

theorem enqueue (h : Tracked p) (hd : Delivers p.loaded d.stream) {u : StateUpdate}
    (hsent : d.sent = p.daemon.sent ++ [u]) {watches : List Watch}
    (hkeeps : ∀ w ∈ p.watches, w ∈ watches)
    (hu : ∀ f id at_, u = .runStarted f id at_ → ∃ w ∈ watches, w.task.Watches f id) :
    Tracked { p with daemon := d, watches := watches } := by
  have heq : ({ p with daemon := d, watches := watches } : Process).eventually =
      p.eventually.apply u := by
    simp only [Process.eventually, hsent, State.applyAll_concat]
  refine ⟨hd, ?_, ?_⟩
  · rw [heq]
    exact State.nodup_activeIds_apply h.nodup u
  · intro f id hid
    rw [heq] at hid
    rcases State.mem_activeIds_of_apply h.nodup hid with hid | ⟨at_, rfl⟩
    · obtain ⟨w, hw, hwatches⟩ := h.watched f id hid
      exact ⟨w, hkeeps w hw, hwatches⟩
    · exact hu f id at_ rfl

theorem daemon (h : Tracked p) {e : Event} (hadmits : p.admits e = true)
    (hstep : p.daemon.step crates e = some d) : Tracked { p with daemon := d } := by
  have htraffic := Daemon.step_traffic hstep
  have hd := h.delivers.traffic htraffic
  generalize hs : d.stream = s at htraffic
  have hsent : d.sent = s.sent := congrArg Stream.sent hs
  cases htraffic with
  | still | receive | write => exact h.frame hd hsent
  | @observe id t u queue ht hflow hu hqueue =>
    refine h.enqueue hd hsent (fun _ hw => hw) ?_
    rintro f id at_ rfl
    cases hu
  | run => cases hadmits
  | removed => exact h.enqueue hd hsent (fun _ hw => hw) nofun

theorem update (h : Tracked p) {index : Nat} {w : Watch} (hw : p.watches[index]? = some w)
    {pc : MonitorPc} (hpc : pc ≠ .closing ∨
      w.task.params.runId ∉ (p.eventually.entry w.task.params.flowName).activeIds) :
    Tracked (p.update index w pc) := by
  refine ⟨h.delivers, h.nodup, ?_⟩
  intro f id hid
  obtain ⟨v, hv, hwatches⟩ := h.watched f id hid
  rcases eq_or_ne v w with rfl | hvw
  · obtain ⟨rfl, rfl, -⟩ := hwatches
    refine ⟨{ v with task.pc := pc }, ?_, rfl, rfl, hpc.resolve_right (fun hgone => hgone hid)⟩
    exact List.mem_set (List.getElem?_eq_some_iff.mp hw).1 _
  · exact ⟨v, mem_set_of_ne _ hw hv hvw, hwatches⟩

theorem drop (h : Tracked p) {index : Nat} {w : Watch} (hw : p.watches[index]? = some w)
    (hgone : w.task.pc = .closing ∨
      w.task.params.runId ∉ (p.eventually.entry w.task.params.flowName).activeIds) :
    Tracked (p.drop index) := by
  refine ⟨h.delivers, h.nodup, ?_⟩
  intro f id hid
  obtain ⟨v, hv, hwatches⟩ := h.watched f id hid
  refine ⟨v, mem_eraseIdx_of_ne hw hv ?_, hwatches⟩
  rintro rfl
  obtain ⟨rfl, rfl, hpc⟩ := hwatches
  exact hgone.elim hpc fun hgone => hgone hid

theorem afterHandled (h : Tracked p) {t : Task} {handled : Handled}
    (hhandled : ∀ u params, handled.update = some u → handled.monitor = some params →
      ∃ at_, u = .runStarted params.flowName params.runId at_)
    (hstep : p.afterHandled crates t handled = some p') : Tracked p' := by
  unfold Process.afterHandled at hstep
  split at hstep
  · next u params hu hparams =>
    obtain ⟨d, hd, rfl⟩ := Option.map_eq_some_iff.mp hstep
    obtain ⟨at_, rfl⟩ := hhandled u params hu hparams
    refine h.enqueue (h.delivers.traffic (Daemon.step_traffic hd)) (Daemon.runUpdate_sent hd)
      (fun w hw => List.mem_append_left _ hw) ?_
    intro f id at_' heq
    cases heq
    exact ⟨_, List.mem_append_right _ (List.mem_singleton_self _), rfl, rfl, by simp⟩
  · split at hstep
    · cases hstep
      exact h
    · cases hstep
      exact h.frame h.delivers rfl

end Tracked

theorem handleTrigger_starts_monitored {dispatch : DispatchCrates} {params : FlowDispatchParams}
    {signal : TriggerSignal} {env : TriggerEnv} {handled : Handled}
    (h : handleTrigger dispatch params signal env = some handled) (u : StateUpdate)
    (monitor : Flow.MonitorParams) (hu : handled.update = some u) (hm : handled.monitor = some monitor) :
    ∃ at_, u = .runStarted monitor.flowName monitor.runId at_ := by
  unfold handleTrigger at h
  split at h
  · cases h
    cases hu
  · obtain ⟨result, -, rfl⟩ := Option.map_eq_some_iff.mp h
    cases result with
    | error e => cases hu
    | ok found =>
      obtain ⟨outcome, correlation⟩ := found
      cases hopen : env.stateOpen with
      | true =>
        simp only [startRun, hopen, if_true, Option.some.injEq] at hu hm
        subst hu hm
        exact ⟨_, rfl⟩
      | false => simp [startRun, hopen] at hu

namespace Tracked

variable {crates : Crates} {dispatch : DispatchCrates} {p p' : Process}

theorem step (h : Tracked p) {e : ProcessEvent} (hsees : SeesThrough dispatch p e)
    (hstep : p.step crates dispatch e = some p') : Tracked p' := by
  obtain ⟨hends, hrestart⟩ := hsees
  cases e with
  | daemon e =>
    obtain ⟨hadmits, hstep⟩ := Option.ite_none_right_eq_some.mp hstep
    obtain ⟨d, hd, rfl⟩ := Option.map_eq_some_iff.mp hstep
    exact h.daemon hadmits hd
  | trigger id client signal env =>
    obtain ⟨t, -, hstep⟩ := Option.bind_eq_some_iff.mp hstep
    obtain ⟨handled, hhandled, hstep⟩ := Option.bind_eq_some_iff.mp hstep
    exact h.afterHandled (handleTrigger_starts_monitored hhandled) hstep
  | sourceEnds index cycles =>
    obtain ⟨w, hw, hstep⟩ := Option.bind_eq_some_iff.mp hstep
    obtain ⟨-, hstep⟩ := Option.ite_none_right_eq_some.mp hstep
    obtain ⟨⟨events, outcome⟩, hmonitor, rfl⟩ := Option.map_eq_some_iff.mp hstep
    dsimp only
    split
    · next pc hpc => exact h.update hw (.inl (afterEvents_ne_closing hpc))
    · next hnone =>
      have houtcome := (afterEvents_of_monitorRun hmonitor _).mp hnone
      exact h.drop hw (hends w (by simp [Process.ends, hw, hmonitor, houtcome]))
  | sourcePanics index =>
    obtain ⟨w, hw, hstep⟩ := Option.bind_eq_some_iff.mp hstep
    obtain ⟨-, rfl⟩ := Transition.guard_eq_some.mp hstep
    exact h.drop hw (hends w hw)
  | report index =>
    obtain ⟨w, hw, hstep⟩ := Option.bind_eq_some_iff.mp hstep
    split at hstep
    · next conclusion completedAt hpc =>
      obtain ⟨d, hd, rfl⟩ := Option.map_eq_some_iff.mp hstep
      have hsent := Daemon.runUpdate_sent hd
      have henqueued := h.enqueue (h.delivers.traffic (Daemon.step_traffic hd)) hsent
        (fun _ hw => hw) nofun
      refine henqueued.update hw (.inr ?_)
      simp only [Process.eventually, hsent, State.applyAll_concat]
      exact State.finished_not_active h.nodup _ _ _ _
    · cases hstep
  | reportLost index =>
    obtain ⟨w, hw, hstep⟩ := Option.bind_eq_some_iff.mp hstep
    split at hstep
    · cases hstep
      exact h.drop hw (hends w hw)
    · cases hstep
  | close index =>
    obtain ⟨w, hw, hstep⟩ := Option.bind_eq_some_iff.mp hstep
    obtain ⟨-, rfl⟩ := Transition.guard_eq_some.mp hstep
    exact h.drop hw (hends w hw)
  | abort index =>
    obtain ⟨w, hw, rfl⟩ := Option.map_eq_some_iff.mp hstep
    exact h.drop hw (hends w hw)
  | restart config now =>
    cases hstep
    exact .start config now _ (hrestart rfl)

theorem applied (h : Tracked p) (hp : p.AllApplied) :
    p.daemon.writer.state = p.eventually := by
  obtain ⟨hqueue, hpc⟩ := hp
  have hsent : p.daemon.sent = p.daemon.ledger.received ++ p.daemon.stateQueue.queue :=
    h.delivers.sent
  rw [hqueue, List.append_nil] at hsent
  have hstate : p.daemon.writer.state = p.loaded.applyAll p.daemon.ledger.received := by
    apply h.delivers.tracks.state_eq
    change p.daemon.writer.erase.pc ≠ .apply
    simp only [Writer.MirroredFrame.erase]
    split
    · simp
    · simp
    · exact hpc
  rw [hstate, Process.eventually, hsent]

end Tracked

/-- In every run, restarts included, that starts on files without active runs and
in which a monitor task ends only when its `RunFinished` was taken or its run is
not listed any more: whenever all updates sent are applied, each run listed as
active is watched by a monitor task of this process. -/
theorem active_runs_are_watched (crates : Crates) (dispatch : DispatchCrates) (config : Config)
    (disk : Option State) (now : DateTime) (observed : List Observation)
    (events : List ProcessEvent) (p : Process) (hdisk : NoActiveRuns (Writer.loadOrInit disk))
    (hrun : Transition.run (Process.step crates dispatch) (.start config disk now observed) events =
      some p)
    (hsees : Transition.Along (Process.step crates dispatch) (SeesThrough dispatch)
      (.start config disk now observed) events)
    (happlied : p.AllApplied) :
    ∀ f, ∀ r ∈ (p.daemon.writer.state.entry f).activeRuns,
      ∃ w ∈ p.watches, w.task.params.flowName = f ∧ w.task.params.runId = r.runId := by
  have htracked : Tracked p := Transition.invariant_along
    (fun _ _ _ h hsees hstep => h.step hsees hstep) (.start config now observed hdisk) hsees hrun
  intro f r hr
  rw [htracked.applied happlied] at hr
  obtain ⟨w, hw, hflow, hid, -⟩ := htracked.watched f r.runId (List.mem_map_of_mem hr)
  exact ⟨w, hw, hflow, hid⟩

def linuxConfig : Config := oneFlow (kernelFlow "linux" "linux.git" "refs/heads/master")

/-- The flow is started and one of its triggers starts this run, which is recorded. -/
def startedRun (runId : UInt64) : List ProcessEvent :=
  [.daemon (.spawnNext .ready), .daemon .finalize,
    .trigger (0, .dispatcher) ⟨"github", seconds 30⟩ ⟨.repeated 10, 0⟩
      (callAt (.repeated 1) [attemptAt 0 accepted true]
        [onePage 1 [mainRun runId (marker (.repeated 1)) "aa" 1]])] ++ writerRound.map .daemon

def cycleWith (run : Except GithubErrorKind Run) : MonitorCycle :=
  ⟨⟨some 10, some 5000, none, some 1⟩, 1, false, run, .ok [1], true, false⟩

def completedRun (runId : UInt64) : Run :=
  { mainRun runId "CI" "aa" 1 with status := "completed", conclusion := some "success" }

/-- A run is seen through and recorded before the restart; the next process
watches the run it starts itself. -/
theorem restarted_daemon_watches_new_run :
    ∃ p, Transition.run (Process.step kernelCrates plainCrates) (.start linuxConfig none 0 [])
        (startedRun 7 ++ [.sourceEnds 0 [cycleWith (.ok (completedRun 7))], .report 0, .close 0] ++
          writerRound.map .daemon ++ [.restart linuxConfig 2] ++ startedRun 8) = some p ∧
      (p.daemon.writer.state.entry "linux").activeIds = [8] ∧
      ∃ w ∈ p.watches, w.task.params.flowName = "linux" ∧ w.task.params.runId = 8 := by
  obtain ⟨p, hrun, hqueue, hpc, hids, hactive⟩ :
      ∃ p ∈ Transition.run (Process.step kernelCrates plainCrates) (.start linuxConfig none 0 [])
        (startedRun 7 ++ [.sourceEnds 0 [cycleWith (.ok (completedRun 7))], .report 0, .close 0] ++
          writerRound.map .daemon ++ [.restart linuxConfig 2] ++ startedRun 8),
        p.daemon.stateQueue.queue = [] ∧ p.daemon.writer.pc ≠ .apply ∧
        (p.daemon.writer.state.entry "linux").activeIds = [8] ∧
        ⟨8, 0, none, none⟩ ∈ (p.daemon.writer.state.entry "linux").activeRuns := by
    decide +kernel
  have hwatched := active_runs_are_watched kernelCrates plainCrates linuxConfig none 0 [] _ p
    (by decide +kernel) hrun (by decide +kernel) ⟨hqueue, hpc⟩
  exact ⟨p, hrun, hids, hwatched "linux" ⟨8, 0, none, none⟩ hactive⟩

/-- GitHub refuses the credential: the task ends, the run stays listed, nothing is
recorded as the flow's last error, and the next process loads the run again. -/
theorem failed_monitor_leaves_active_run :
    ∃ p p', Transition.run (Process.step kernelCrates plainCrates) (.start linuxConfig none 0 [])
        (startedRun 7 ++ [.sourceEnds 0 [cycleWith (.error (.unauthorized "github"))]]) = some p ∧
      p.AllApplied ∧ (p.daemon.writer.state.entry "linux").activeIds = [7] ∧ p.watches.length = 0 ∧
      p.daemon.lastErrors["linux"]? = none ∧
      p.step kernelCrates plainCrates (.restart linuxConfig 2) = some p' ∧ p'.AllApplied ∧
      (p'.daemon.writer.state.entry "linux").activeIds = [7] ∧ p'.watches.length = 0 ∧
      p'.daemon.lastErrors["linux"]? = none := by
  obtain ⟨p, hrun, happlied, hids, hwatches, herrors, p', hrestart, hafter⟩ :
      ∃ p ∈ Transition.run (Process.step kernelCrates plainCrates) (.start linuxConfig none 0 [])
        (startedRun 7 ++ [.sourceEnds 0 [cycleWith (.error (.unauthorized "github"))]]),
        (p.daemon.stateQueue.queue = [] ∧ p.daemon.writer.pc ≠ .apply) ∧
        (p.daemon.writer.state.entry "linux").activeIds = [7] ∧ p.watches.length = 0 ∧
        p.daemon.lastErrors["linux"]? = none ∧
        ∃ p' ∈ p.step kernelCrates plainCrates (.restart linuxConfig 2),
          (p'.daemon.stateQueue.queue = [] ∧ p'.daemon.writer.pc ≠ .apply) ∧
          (p'.daemon.writer.state.entry "linux").activeIds = [7] ∧ p'.watches.length = 0 ∧
          p'.daemon.lastErrors["linux"]? = none := by
    decide +kernel
  exact ⟨p, p', hrun, happlied, hids, hwatches, herrors, hrestart, hafter⟩

end Gcit.Supervisor
