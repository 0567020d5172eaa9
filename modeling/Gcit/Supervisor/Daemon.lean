import Gcit.Library.Channel
import Gcit.State.Writer
import Gcit.Supervisor.Reload
import Gcit.Supervisor.Respawn

/-! # The supervisor, its tasks and the state writer

One step function for everything that can happen: a task sends an update or
ends, the writer thread moves on, a timer fires, or the supervisor takes its own
next step at boot, in its select loop or inside a reload. A flow's tasks are
known here by what they may send and how they may end; the events carry every
choice, also whether the notifiers and credentials of a flow can be set up.
-/

namespace Gcit.Supervisor

open Std Gcit Gcit.Git Gcit.Poll Gcit.Library Gcit.Library.Channel

def STATE_QUEUE : Nat := 256

def RESPAWN_QUEUE : Nat := 32

def DRAIN_TIMEOUT : Duration := seconds 30

def RELOAD_SYNTHETIC_KEY : String := "(reload)"

inductive Setup where
  | ready
  | notifierFailed (error : String)
  | credentialFailed (error : String)
  deriving DecidableEq, Repr

structure Watcher where
  due : DateTime
  request : RespawnRequest
  deriving DecidableEq

structure Observation where
  flow : String
  url : String
  refName : String
  sha : ObjectId
  deriving DecidableEq

/-- A reload in progress, with what its drain and its spawns did so far. -/
structure Reload where
  newConfig : Config
  plan : ReloadPlan
  timedOut : Bool
  failed : List String
  deriving DecidableEq

inductive Pc where
  | booting (rest : List FlowConfig)
  | select
  | draining (reload : Reload) (deadline : DateTime)
  | emitting (reload : Reload) (names : List String)
  | spawning (reload : Reload) (rest : List FlowConfig)
  deriving DecidableEq

structure Daemon where
  config : Config
  runtime : Runtime
  lastErrors : LastErrors
  flowNames : List String
  watchers : List Watcher
  respawnQueue : Mpsc RespawnRequest RESPAWN_QUEUE
  stateQueue : Mpsc StateUpdate STATE_QUEUE
  writer : Writer.MirroredFrame
  now : DateTime
  pc : Pc
  /-- Every update the state queue accepted, in order. -/
  sent : List StateUpdate
  /-- What the poll tasks observed so far, and where. -/
  observed : List Observation
  /-- What the writer's events so far amount to. -/
  ledger : Writer.Ledger

def boot (config : Config) (disk : Option State) (now : DateTime) (observed : List Observation) :
    Daemon where
  config := config
  runtime := .empty
  lastErrors := ∅
  flowNames := []
  watchers := []
  respawnQueue := .empty _ _
  stateQueue := .empty _ _
  writer := { Writer.spawn disk with mirror := ⟨Writer.loadOrInit disk, false⟩ }
  now := now
  pc := .booting config.flow
  sent := []
  observed := observed
  ledger := {}

def readPersistedLastSha (mirror : Writer.Mutex State) (flow : String) : Option ObjectId :=
  if mirror.poisoned then none
  else (mirror.value.flows[flow]?).bind fun entry => entry.lastSha.bind ObjectId.fromHex

def readPersistedLastDispatchedAt (mirror : Writer.Mutex State) (flow : String) :
    Option DateTime :=
  if mirror.poisoned then none
  else (mirror.value.flows[flow]?).bind fun entry => entry.lastDispatchedAt

inductive Event where
  | tick (elapsed : Duration)
  | finish (id : Token × FlowRole) (ending : TaskEnd)
  | observe (id : Token × FlowRole) (update : StateUpdate)
  | runUpdate (update : StateUpdate)
  | taskError (flow : String) (entry : Option FlowLastError)
  | writerReceive (count : Nat)
  | writer (e : Writer.Event)
  | watcherFires (index : Nat)
  | joinNext (id : Token × FlowRole)
  | respawn (setup : Setup)
  | reload (loaded : Except String Config)
  | drainJoin (id : Token × FlowRole)
  | drainDone
  | drainTimeout
  | emit
  | pushConfig
  | spawnNext (setup : Setup)
  | finalize

namespace Daemon

def recordSetupFailure (d : Daemon) (flow kind err : String) : Daemon :=
  { d with lastErrors :=
      recordLastError d.lastErrors flow kind ("flow `" ++ flow ++ "`: " ++ err) none d.now }

def send? (d : Daemon) (u : StateUpdate) : Option Daemon :=
  (d.stateQueue.send? u).map fun queue => { d with stateQueue := queue, sent := d.sent ++ [u] }

/-- What the poll task learns from its source when it sends this update. -/
def observations (t : Task) : StateUpdate → List Observation
  | .pollObservation _ sha .. => [⟨t.flow, t.config.source.url, t.config.source.refName, sha⟩]
  | _ => []

def noteObservation (d : Daemon) (t : Task) (u : StateUpdate) : Daemon :=
  { d with observed := d.observed ++ observations t u }

def isPollUpdate : StateUpdate → Bool
  | .pollObservation .. | .pollTimestamp .. => true
  | _ => false

def isRunUpdate : StateUpdate → Bool
  | .runStarted .. | .runFinished .. => true
  | _ => false

def pollTask? (d : Daemon) (id : Token × FlowRole) : Option Task :=
  d.runtime.joinSet.find? fun t => t.id == id && t.role == .poll && t.ending == none

def writerReceive (d : Daemon) (count : Nat) : Option Daemon :=
  let batch := (d.stateQueue.takeMany count).1
  (Writer.runMirrored d.writer (.receive batch)).map fun writer =>
    { d with
      writer := writer
      stateQueue := (d.stateQueue.takeMany count).2
      ledger := d.ledger.record (.receive batch) }

def writerStep (d : Daemon) (e : Writer.Event) : Option Daemon :=
  match e with
  | .receive _ | .closed => none
  | e => (Writer.runMirrored d.writer e).map fun writer =>
    { d with writer := writer, ledger := d.ledger.record e }

def watcherFires (d : Daemon) (index : Nat) : Option Daemon :=
  (d.watchers[index]?).bind fun w =>
    if w.due ≤ d.now then
      (d.respawnQueue.send? w.request).map fun queue =>
        { d with respawnQueue := queue, watchers := d.watchers.eraseIdx index }
    else none

def handleFlowExit (d : Daemon) (joined : Except JoinError FlowExit) : Daemon :=
  let (runtime, panic) := d.runtime.handleFlowExit joined
  let d := { d with runtime := runtime }
  match panic with
  | none => d
  | some (flow, message) =>
    { d with
      lastErrors := recordLastError d.lastErrors flow "panic" message none d.now
      watchers := d.watchers ++ [⟨d.now + RESPAWN_DELAY, ⟨flow, 0⟩⟩] }

variable (crates : Crates)

def spawnFlow (d : Daemon) (flow : FlowConfig) (setup : Setup) : Daemon :=
  match setup with
  | .notifierFailed err => d.recordSetupFailure flow.name "notifier_setup" err
  | .credentialFailed err => d.recordSetupFailure flow.name "credential" err
  | .ready =>
    let effective :=
      effectivePoll d.config.poll flow.poll (autoDetect crates.toUrlCrates flow.source.url)
    let lastSha := readPersistedLastSha d.writer.mirror flow.name
    let lastDispatchedAt := readPersistedLastDispatchedAt d.writer.mirror flow.name
    { d with runtime := d.runtime.addPair flow effective lastSha lastDispatchedAt }

def refreshFlowNames (d : Daemon) : Daemon := { d with flowNames := d.runtime.handles.keys }

def releaseRespawn (d : Daemon) (flow : String) : Daemon :=
  { d with runtime := d.runtime.releaseRespawn flow }

def handleRespawnRequest (d : Daemon) (req : RespawnRequest) (setup : Setup) : Daemon :=
  if d.runtime.pendingExits.contains req.flow ∧ req.attempts < RESPAWN_MAX_ATTEMPTS then
    { d with watchers :=
        d.watchers ++ [⟨d.now + RESPAWN_RETRY_INTERVAL, ⟨req.flow, req.attempts + 1⟩⟩] }
  else
    let d := d.releaseRespawn req.flow
    if d.runtime.handles.contains req.flow then d
    else match d.config.find? req.flow with
      | none => d
      | some flow => if flow.enabled then (d.spawnFlow crates flow setup).refreshFlowNames else d

def runReload (d : Daemon) (loaded : Except String Config) : Daemon :=
  match loaded with
  | .error message =>
    { d with lastErrors :=
        recordLastError d.lastErrors RELOAD_SYNTHETIC_KEY "config_reload" message none d.now }
  | .ok newConfig =>
    let actions := computeReloadActions crates d.config newConfig d.runtime.handles
    let (runtime, plan) := applyActionsToRegistry actions d.runtime
    { d with
      runtime := runtime
      pc := .draining ⟨newConfig, plan, false, []⟩ (d.now + DRAIN_TIMEOUT) }

def spawnNewGeneration (d : Daemon) (reload : Reload) (flow : FlowConfig)
    (rest : List FlowConfig) (setup : Setup) : Daemon :=
  if flow.enabled = false ∨ reload.plan.toKeep.contains flow.name then
    { d with pc := .spawning reload rest }
  else
    let failed := if setup = .ready then reload.failed else reload.failed ++ [flow.name]
    { (d.releaseRespawn flow.name).spawnFlow crates flow setup with
      pc := .spawning { reload with failed := failed } rest }

def step (d : Daemon) : Event → Option Daemon
  | .tick elapsed => some { d with now := d.now + elapsed }
  | .finish id ending => (d.runtime.finish id ending).map fun runtime => { d with runtime := runtime }
  | .observe id update => (d.pollTask? id).bind fun t =>
    if update.flow = t.flow ∧ isPollUpdate update = true then
      (d.send? update).map fun d => d.noteObservation t update
    else none
  | .runUpdate update => if isRunUpdate update = true then d.send? update else none
  | .taskError flow entry => some { d with lastErrors := match entry with
      | none => d.lastErrors.erase flow
      | some e => d.lastErrors.insert flow e }
  | .writerReceive count => d.writerReceive count
  | .writer e => d.writerStep e
  | .watcherFires index => d.watcherFires index
  | .joinNext id => match d.pc with
    | .select => (d.runtime.joinNext? id).map fun (_, joined, runtime) =>
      { d with runtime := runtime }.handleFlowExit joined
    | _ => none
  | .respawn setup => match d.pc with
    | .select => d.respawnQueue.recv?.map fun (req, queue) =>
      { d with respawnQueue := queue }.handleRespawnRequest crates req setup
    | _ => none
  | .reload loaded => match d.pc with
    | .select => some (d.runReload crates loaded)
    | _ => none
  | .drainJoin id => match d.pc with
    | .draining reload _ =>
      if reload.plan.toKeep.size * 2 < d.runtime.joinSet.length then
        (d.runtime.joinNext? id).map fun (_, _, runtime) => { d with runtime := runtime }
      else none
    | _ => none
  | .drainDone => match d.pc with
    | .draining reload _ =>
      if d.runtime.joinSet.length ≤ reload.plan.toKeep.size * 2 then
        some { d with pc := .emitting reload (reload.plan.removedFlows ++ reload.plan.urlResets) }
      else none
    | _ => none
  | .drainTimeout => match d.pc with
    | .draining reload deadline =>
      if deadline ≤ d.now ∧ reload.plan.toKeep.size * 2 < d.runtime.joinSet.length then
        let names := reload.plan.removedFlows ++ reload.plan.urlResets
        some { d with pc := .emitting { reload with timedOut := true } names }
      else none
    | _ => none
  | .emit => match d.pc with
    | .emitting reload (name :: names) =>
      (d.send? (.flowRemoved name)).map fun d => { d with pc := .emitting reload names }
    | _ => none
  | .pushConfig => match d.pc with
    | .emitting reload [] =>
      some { d with config := reload.newConfig, pc := .spawning reload reload.newConfig.flow }
    | _ => none
  | .spawnNext setup => match d.pc with
    | .booting (flow :: rest) =>
      if flow.enabled then some { d.spawnFlow crates flow setup with pc := .booting rest }
      else some { d with pc := .booting rest }
    | .spawning reload (flow :: rest) => some (d.spawnNewGeneration crates reload flow rest setup)
    | _ => none
  | .finalize => match d.pc with
    | .booting [] => some { d.refreshFlowNames with pc := .select }
    | .spawning _ [] =>
      some { { d with lastErrors := d.lastErrors.erase RELOAD_SYNTHETIC_KEY }.refreshFlowNames with
        pc := .select }
    | _ => none

end Daemon

def kernelTree (tree : String) : String := "https://git.kernel.org/pub/scm/" ++ tree

/-- The parsers on the trees of the fixed runs; their flows render no destination. -/
def kernelCrates : Crates where
  urlParse url := match ["linux.git", "stable.git"].find? fun tree => url = kernelTree tree with
    | some tree => .ok ⟨"https", some "git.kernel.org", some ["pub", "scm", tree]⟩
    | none => .error "relative URL without a base"
  gixUrlParse url := match ["linux.git", "stable.git"].find? fun tree => url = kernelTree tree with
    | some tree => .ok ⟨some "git.kernel.org", "/pub/scm/" ++ tree⟩
    | none => .error "not a URL"
  strDebug s := "\"" ++ s ++ "\""
  jsonToString _ := ""

def kernelFlow (name tree refName : String) : FlowConfig where
  name := name
  enabled := true
  description := none
  source := ⟨kernelTree tree, refName, none⟩
  action := ⟨"owner/repo", "ci.yml", "main", "github", ∅⟩
  destination := []
  poll := {}

def oneFlow (flow : FlowConfig) : Config := ⟨{}, [flow], List.nodup_singleton _⟩

end Gcit.Supervisor
