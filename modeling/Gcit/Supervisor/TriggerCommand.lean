import Gcit.Flow.HandleTrigger
import Gcit.Flow.NoLostTrigger
import Gcit.Supervisor.Daemon

/-! # Trigger commands in the supervisor's loop

The supervisor serves one arm of its select loop at a time. A `Trigger` command ends
in a send into the flow's bounded queue, which the supervisor awaits inside the arm.
The other arms are seen here by what they do to the registered flows and the
configuration.
-/

namespace Gcit.Supervisor

open Std Gcit Gcit.Git Gcit.Poll Gcit.Flow Gcit.Library Gcit.Library.Channel
  Gcit.Library.OrderedMap

structure TriggerCommand where
  flow : String
  dryRun : Bool
  deriving DecidableEq, Repr

/-- The crates behind `run_trigger`: templates, and the texts of hex errors. -/
structure TriggerCrates extends DispatchCrates where
  hexError : String → String

/-- What `run_trigger` comes to before its only await: its answer, or the SHA it sends. -/
inductive TriggerAction where
  | answer (result : Except String Json)
  | enqueue (sha : ObjectId)

def readLastSha (crates : TriggerCrates) (mirror : Writer.Mutex State) (flow : String) :
    Except String ObjectId :=
  if mirror.poisoned then .error "state mirror mutex poisoned"
  else match mirror.value.flows[flow]? with
    | none => .error s!"flow '{flow}' has no recorded state yet"
    | some entry => match entry.lastSha with
      | none => .error (s!"flow '{flow}' has no observed sha yet " ++
          "(manual trigger requires at least one poll cycle)")
      | some hex => match ObjectId.fromHex hex with
        | none => .error (s!"flow '{flow}' last_sha is not valid hex: " ++ crates.hexError hex)
        | some sha => .ok sha

def renderDryRunPayload (crates : TriggerCrates) (flow : FlowConfig) (gcitRunId : Github.Uuid)
    (now : DateTime) : Except String Json :=
  let probe : RunContext := {
    flowName := flow.name
    flowDescription := flow.description
    source := ⟨flow.source.url, flow.source.refName, .repeated 0, "000000000000"⟩
    action := ⟨flow.action.repo, flow.action.workflow, 0, "", now⟩
    gcitRunId := gcitRunId }
  match renderInputs crates.toDispatchCrates flow.action.inputs probe with
  | .error e => .error ("render inputs (dry-run): " ++ e)
  | .ok rendered => .ok (.object [("dry_run", .bool true), ("flow", .string flow.name),
      ("gcit_run_id", .string gcitRunId.toText), ("ref", .string flow.action.refName),
      ("rendered_inputs", Github.buildInputsPayload rendered gcitRunId),
      ("repo", .string flow.action.repo), ("workflow", .string flow.action.workflow)])

/-- One flow with a handle: what its tasks run with, and the two tasks. -/
structure FlowTasks where
  params : PollParams
  pair : Pair

/-- `run_trigger` up to its send. -/
def runTrigger (crates : TriggerCrates) (c : TriggerCommand) (config : Config)
    (mirror : Writer.Mutex State) (handles : ExtTreeMap String FlowTasks)
    (gcitRunId : Github.Uuid) (now : DateTime) : TriggerAction :=
  match config.find? c.flow with
  | none => .answer (.error s!"flow '{c.flow}' not found in current config")
  | some flow =>
    if ¬ flow.enabled then .answer (.error s!"flow '{c.flow}' is disabled in current config")
    else if c.dryRun then .answer (renderDryRunPayload crates flow gcitRunId now)
    else match readLastSha crates mirror c.flow with
      | .error e => .answer (.error e)
      | .ok sha =>
        if handles.contains c.flow then .enqueue sha
        else .answer (.error s!"flow '{c.flow}' is not currently running")

def enqueuedBody (c : TriggerCommand) (sha : ObjectId) : Json :=
  .object [("flow", .string c.flow), ("observed_sha", .string sha.toHex),
    ("result", .string "trigger enqueued")]

/-- What can be pending for the select loop. -/
inductive Input where
  | sighup
  | sigterm
  | sigint
  | reloadCommand
  | triggerCommand (c : TriggerCommand)
  | flowExit
  | respawnRequest
  deriving DecidableEq, Repr

inductive LoopPc where
  | select
  | triggering (c : TriggerCommand)
  | sending (c : TriggerCommand) (signal : TriggerSignal)
  | replying (result : Except String Json)
  | stopped

structure TriggerLoop where
  config : Config
  mirror : Writer.Mutex State
  handles : ExtTreeMap String FlowTasks
  pending : List Input
  pc : LoopPc
  replies : List (Except String Json)

inductive LoopEvent where
  | arrive (input : Input)
  | publish (mirror : Writer.Mutex State)
  | task (flow : String) (e : Flow.Event)
  | take (index : Nat)
  | register (flow : String) (params : PollParams) (sha : Option ObjectId)
      (dispatched : Option DateTime) (errors : LastErrors)
  | unregister (flow : String)
  | pushConfig (config : Config)
  | check (gcitRunId : Github.Uuid) (now : DateTime)
  | send
  | reply

/-- The steps of a `Trigger` command, which are the supervisor's own. -/
def LoopEvent.isOwn : LoopEvent → Bool
  | .check .. | .send | .reply => true
  | _ => false

/-- Cancelling a flow, dropping its handle and triggering it are the supervisor's. -/
def taskStep : Flow.Event → Bool
  | .cancel | .dropHandle | .manualTrigger _ => false
  | _ => true

namespace TriggerLoop

variable (urls : UrlCrates) (crates : TriggerCrates)

def start (config : Config) (mirror : Writer.Mutex State) : TriggerLoop :=
  ⟨config, mirror, ∅, [], .select, []⟩

def setPair (s : TriggerLoop) (flow : String) (tasks : FlowTasks) (pair : Pair) : TriggerLoop :=
  { s with handles := s.handles.insert flow { tasks with pair := pair } }

def receives (input : Input) : LoopPc :=
  match input with
  | .triggerCommand c => .triggering c
  | .sigterm | .sigint => .stopped
  | .sighup | .reloadCommand | .flowExit | .respawnRequest => .select

def step (s : TriggerLoop) : LoopEvent → Option TriggerLoop
  | .arrive input => some { s with pending := s.pending ++ [input] }
  | .publish mirror => some { s with mirror := mirror }
  | .task flow e =>
    if taskStep e then
      (s.handles[flow]?).bind fun tasks =>
        (tasks.pair.step urls tasks.params e).map fun pair => s.setPair flow tasks pair
    else none
  | .take index => match s.pc with
    | .select => (s.pending[index]?).map fun input =>
      { s with pending := s.pending.eraseIdx index, pc := receives input }
    | _ => none
  | .register flow params sha dispatched errors => match s.pc with
    | .select => some { s with
        handles := s.handles.insert flow ⟨params, .start sha dispatched errors⟩ }
    | _ => none
  | .unregister flow => match s.pc with
    | .select => some { s with handles := s.handles.erase flow }
    | _ => none
  | .pushConfig config => match s.pc with
    | .select => some { s with config := config }
    | _ => none
  | .check gcitRunId now => match s.pc with
    | .triggering c => match runTrigger crates c s.config s.mirror s.handles gcitRunId now with
      | .answer result => some { s with pc := .replying result }
      | .enqueue sha => some { s with pc := .sending c ⟨sha, now⟩ }
    | _ => none
  | .send => match s.pc with
    | .sending c signal => (s.handles[c.flow]?).bind fun tasks =>
      if tasks.pair.channel.open_ then
        (tasks.pair.step urls tasks.params (.manualTrigger signal)).map fun pair =>
          { s.setPair c.flow tasks pair with
            pc := .replying (.ok (enqueuedBody c signal.observedSha)) }
      else some { s with pc := .replying (.error "failed to enqueue trigger: channel closed") }
    | _ => none
  | .reply => match s.pc with
    | .replying result => some { s with pc := .select, replies := s.replies ++ [result] }
    | _ => none

def handling (s : TriggerLoop) : Bool :=
  match s.pc with
  | .triggering _ | .sending .. | .replying _ => true
  | .select | .stopped => false

/-- The supervisor comes back to its select loop by its own steps alone. -/
def FinishesAlone (s : TriggerLoop) : Prop :=
  ∃ own t, (∀ e ∈ own, e.isOwn = true) ∧ Transition.run (step urls crates) s own = some t ∧
    t.pc = .select

def target (s : TriggerLoop) : Option FlowTasks :=
  match s.pc with
  | .triggering c =>
    match runTrigger crates c s.config s.mirror s.handles .nil 0 with
    | .enqueue _ => s.handles[c.flow]?
    | .answer _ => none
  | .sending c _ => s.handles[c.flow]?
  | _ => none

/-- The command being handled sends into a full queue that a dispatcher still holds. -/
def SendsIntoFull (s : TriggerLoop) : Prop :=
  ∃ tasks ∈ s.target crates,
    tasks.pair.channel.open_ = true ∧ tasks.pair.channel.queue.length = TRIGGER_QUEUE

instance decidableSendsIntoFull (s : TriggerLoop) : Decidable (s.SendsIntoFull crates) :=
  inferInstanceAs (Decidable (∃ tasks ∈ s.target crates, _))

variable {urls crates} {s t : TriggerLoop} {e : LoopEvent}

theorem runTrigger_enqueue {c : TriggerCommand} {config : Config} {mirror : Writer.Mutex State}
    {handles : ExtTreeMap String FlowTasks} {gcitRunId : Github.Uuid} {now : DateTime}
    {sha : ObjectId} (h : runTrigger crates c config mirror handles gcitRunId now = .enqueue sha)
    (gcitRunId' : Github.Uuid) (now' : DateTime) :
    runTrigger crates c config mirror handles gcitRunId' now' = .enqueue sha ∧
      (handles[c.flow]?).isSome := by
  unfold runTrigger at h ⊢
  split at h
  · cases h
  · split at h
    · cases h
    · next henabled =>
      split at h
      · cases h
      · next hdry =>
        rw [if_neg henabled, if_neg hdry]
        split at h
        · cases h
        · split at h
          · next hlive =>
            rw [if_pos hlive]
            exact ⟨h, by simpa [ExtTreeMap.isSome_getElem?_eq_contains] using hlive⟩
          · cases h

theorem task_registrySender {p p' : Pair} {params : PollParams} {e : Flow.Event}
    (htask : taskStep e = true) (h : p.step urls params e = some p') :
    p'.registrySender = p.registrySender := by
  cases e with
  | cancel | dropHandle | manualTrigger => cases htask
  | poll e =>
    simp only [Pair.step, Pair.stepPoll] at h
    obtain ⟨-, h⟩ := Option.ite_none_right_eq_some.mp h
    obtain ⟨l, -, h⟩ := Option.bind_eq_some_iff.mp h
    split at h
    · obtain ⟨m, hm, rfl⟩ := Option.map_eq_some_iff.mp h
      unfold Pair.acceptTrigger at hm
      split at hm
      · obtain ⟨channel, -, rfl⟩ := Option.map_eq_some_iff.mp hm
        rfl
      · cases hm
    · cases h
      unfold Pair.noteObservation
      split <;> rfl
    · cases h
      rfl
  | stateWriterGone =>
    cases h
    rfl
  | seeCancel | closed | joinMonitor | drainEmpty | exit =>
    obtain ⟨-, rfl⟩ := Transition.guard_eq_some.mp h
    rfl
  | receive | tryReceive =>
    obtain ⟨-, h⟩ := Option.ite_none_right_eq_some.mp h
    obtain ⟨⟨message, channel⟩, -, rfl⟩ := Option.map_eq_some_iff.mp h
    rfl
  | handleDone spawned failure now =>
    simp only [Pair.step] at h
    split at h
    · cases h; rfl
    · cases h; rfl
    · cases h

/-- The registry holds a sender of every registered flow, and a send goes to one. -/
structure Registered (s : TriggerLoop) : Prop where
  senders : ∀ (f : String) tasks, s.handles[f]? = some tasks → tasks.pair.registrySender = true
  sending : ∀ c signal, s.pc = .sending c signal → (s.handles[c.flow]?).isSome

namespace Registered

theorem start (config : Config) (mirror : Writer.Mutex State) :
    Registered (.start config mirror) where
  senders f tasks h := by simp [TriggerLoop.start] at h
  sending c signal h := by cases h

theorem setPair (h : Registered s) {flow : String} {tasks : FlowTasks} {pair : Pair}
    (hpair : pair.registrySender = true) : Registered (s.setPair flow tasks pair) where
  senders f u hu := by
    simp only [TriggerLoop.setPair, lookup_insert] at hu
    split at hu
    · cases hu
      exact hpair
    · exact h.senders f u hu
  sending c signal hpc := by
    simp only [TriggerLoop.setPair, lookup_insert]
    split
    · rfl
    · exact h.sending c signal hpc

theorem step (h : Registered s) (hstep : s.step urls crates e = some t) : Registered t := by
  cases e with
  | arrive input | publish mirror =>
    cases hstep
    exact ⟨h.senders, h.sending⟩
  | task flow e =>
    obtain ⟨htask, hstep⟩ := Option.ite_none_right_eq_some.mp hstep
    obtain ⟨tasks, htasks, hstep⟩ := Option.bind_eq_some_iff.mp hstep
    obtain ⟨pair, hpair, rfl⟩ := Option.map_eq_some_iff.mp hstep
    exact h.setPair ((task_registrySender htask hpair).trans (h.senders flow tasks htasks))
  | take index =>
    simp only [TriggerLoop.step] at hstep
    split at hstep
    · obtain ⟨input, -, rfl⟩ := Option.map_eq_some_iff.mp hstep
      refine ⟨h.senders, fun c signal hpc => ?_⟩
      cases input <;> cases hpc
    · cases hstep
  | register flow params sha dispatched errors =>
    simp only [TriggerLoop.step] at hstep
    split at hstep
    · next hpc =>
      cases hstep
      refine ⟨fun f u hu => ?_, fun c signal h => by rw [hpc] at h; cases h⟩
      simp only [lookup_insert] at hu
      split at hu
      · cases hu
        rfl
      · exact h.senders f u hu
    · cases hstep
  | unregister flow =>
    simp only [TriggerLoop.step] at hstep
    split at hstep
    · next hpc =>
      cases hstep
      refine ⟨fun f u hu => ?_, fun c signal h => by rw [hpc] at h; cases h⟩
      simp only [lookup_erase] at hu
      split at hu
      · cases hu
      · exact h.senders f u hu
    · cases hstep
  | pushConfig config =>
    simp only [TriggerLoop.step] at hstep
    split at hstep
    · next hpc =>
      cases hstep
      exact ⟨h.senders, h.sending⟩
    · cases hstep
  | check gcitRunId now =>
    simp only [TriggerLoop.step] at hstep
    split at hstep
    · split at hstep
      · cases hstep
        exact ⟨h.senders, nofun⟩
      · next hrun =>
        cases hstep
        refine ⟨h.senders, ?_⟩
        rintro c signal ⟨⟩
        exact (runTrigger_enqueue hrun gcitRunId now).2
    · cases hstep
  | send =>
    simp only [TriggerLoop.step] at hstep
    split at hstep
    · next c _ _ =>
      obtain ⟨tasks, htasks, hstep⟩ := Option.bind_eq_some_iff.mp hstep
      split at hstep
      · obtain ⟨pair, hpair, rfl⟩ := Option.map_eq_some_iff.mp hstep
        obtain ⟨hsender, hpair⟩ := Option.ite_none_right_eq_some.mp hpair
        obtain ⟨channel, -, rfl⟩ := Option.map_eq_some_iff.mp hpair
        have hset : Registered (s.setPair c.flow tasks { tasks.pair with channel }) :=
          h.setPair hsender
        exact ⟨hset.senders, nofun⟩
      · cases hstep
        exact ⟨h.senders, nofun⟩
    · cases hstep
  | reply =>
    simp only [TriggerLoop.step] at hstep
    split at hstep
    · cases hstep
      exact ⟨h.senders, nofun⟩
    · cases hstep

end Registered

theorem FinishesAlone.cons (hown : e.isOwn = true) (hstep : s.step urls crates e = some t)
    (h : t.FinishesAlone urls crates) : s.FinishesAlone urls crates := by
  obtain ⟨own, u, hrest, hrun, hpc⟩ := h
  refine ⟨e :: own, u, ?_, Transition.run_cons_eq_some.mpr ⟨t, hstep, hrun⟩, hpc⟩
  rintro e' (_ | ⟨_, he'⟩)
  · exact hown
  · exact hrest e' he'

end TriggerLoop

end Gcit.Supervisor
