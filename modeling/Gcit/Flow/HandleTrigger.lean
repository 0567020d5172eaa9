import Gcit.Flow.TriggerPath
import Gcit.Github.Correlator

/-! # Handling one trigger

`handle_trigger` renders the inputs, dispatches, correlates, tells the state
writer and starts the monitor. All that the outside decides during one call is
one record. Templates are rendered by a crate, so rendering is a parameter; the
notifications that the call fans out return nothing to it and are left out.
-/

namespace Gcit.Flow

open Std Gcit Gcit.Git Gcit.Poll Gcit.Library Gcit.Github

def DISPATCH_MAX_ATTEMPTS : Nat := 3

structure SourceInfo where
  url : String
  refName : String
  sha : ObjectId
  shaShort : String

structure ActionInfo where
  repo : String
  workflow : String
  runId : UInt64
  runUrl : String
  dispatchedAt : DateTime

structure RunContext where
  flowName : String
  flowDescription : Option String
  source : SourceInfo
  action : ActionInfo
  gcitRunId : Uuid

/-- The clients and crates a call works with. -/
structure DispatchCrates where
  http : HttpCrate
  formats : Formats
  renderTemplate : String → RunContext → Except String String

structure FlowDispatchParams where
  flowName : String
  flowDescription : Option String
  url : String
  refName : String
  action : ActionConfig
  jobInterval : Duration
  client : Client

structure MonitorParams where
  flowName : String
  repo : String
  workflow : String
  runId : UInt64
  jobInterval : Duration
  runContext : RunContext

structure TriggerEnv where
  gcitRunId : Uuid
  triggeredAt : DateTime
  attempts : List Attempt
  correlationStarted : DateTime
  cycles : List CorrelateCycle
  stateOpen : Bool
  runStartedAt : DateTime

inductive ExecuteOutcome where
  | success (dispatch : DispatchOutcome) (correlation : CorrelationOutcome)
  | dispatchFailed (e : GithubErrorKind)
  | correlateFailed (e : CorrelationError)

/-- What a call leaves behind: the update the state writer took, the monitor it
spawned, and what it returned. -/
structure Handled where
  update : Option StateUpdate
  monitor : Option MonitorParams
  result : Except DispatchError Unit

namespace DispatchError

variable (formats : Formats)

def fromGithubError (stage : String) (e : GithubErrorKind) : DispatchError where
  kind := stage
  message := stage ++ ": " ++ e.display formats
  retryAt := match e with
    | .rateLimited _ reset => some reset
    | _ => none

def fromCorrelationError (stage : String) (e : CorrelationError) : DispatchError where
  kind := stage
  message := stage ++ ": " ++ e.display formats
  retryAt := match e with
    | .github (.rateLimited _ reset) => some reset
    | _ => none

def fromMessage (kind message : String) : DispatchError := ⟨kind, message, none⟩

end DispatchError

def shortSha (sha : ObjectId) : String := String.ofList (sha.toHex.toList.take 12)

variable (crates : DispatchCrates) (params : FlowDispatchParams) (trigger : TriggerSignal)
  (env : TriggerEnv)

def buildRunContext (repo workflow : String) (gcitRunId : Uuid) (dispatchedAt : DateTime)
    (runId : UInt64) (runUrl : String) : RunContext where
  flowName := params.flowName
  flowDescription := params.flowDescription
  source := ⟨params.url, params.refName, trigger.observedSha, shortSha trigger.observedSha⟩
  action := ⟨repo, workflow, runId, runUrl, dispatchedAt⟩
  gcitRunId := gcitRunId

/-- The first template that fails ends the rendering. -/
def renderInputs (templatedInputs : ExtTreeMap String String) (ctx : RunContext) :
    Except String (ExtTreeMap String String) :=
  templatedInputs.toList.foldlM
    (fun out (k, v) => (crates.renderTemplate v ctx).map fun rendered => out.insert k rendered) ∅

def renderDispatchInputs (inputs : ExtTreeMap String String) (ctx : RunContext) :
    Except DispatchError (ExtTreeMap String String) :=
  match renderInputs crates inputs ctx with
  | .ok rendered => .ok rendered
  | .error e => .error (.fromMessage "input_render" ("input render failed: " ++ e))

def dispatchParams : Except DispatchError DispatchParams :=
  (renderDispatchInputs crates params.action.inputs
    (buildRunContext params trigger params.action.repo params.action.workflow env.gcitRunId
      env.triggeredAt 0 "")).map fun renderedInputs =>
    ⟨params.action.repo, params.action.workflow, params.action.refName, env.gcitRunId,
      renderedInputs⟩

def correlateParams (outcome : DispatchOutcome) (branch headSha : String) : CorrelateParams where
  repo := outcome.repo
  workflow := outcome.workflow
  gcitRunId := outcome.gcitRunId
  branch := branch
  headSha := headSha
  dispatchedAt := outcome.dispatchedAt
  runNameConfigured := none

def execute (dispatchParams : DispatchParams) (branch headSha : String) : Option ExecuteOutcome :=
  match dispatchWithRetry crates.http params.client dispatchParams DISPATCH_MAX_ATTEMPTS
    env.attempts with
  | none => none
  | some (.error e) => some (.dispatchFailed e)
  | some (.ok outcome) =>
    (correlate crates.http (correlateParams outcome branch headSha) env.correlationStarted
      env.cycles).map fun
      | .ok correlation => .success outcome correlation
      | .error e => .correlateFailed e

def executeDispatchAndCorrelate (dispatchParams : DispatchParams) :
    Option (Except DispatchError (DispatchOutcome × CorrelationOutcome)) :=
  (execute crates params env dispatchParams (refToBranch params.action.refName)
    trigger.observedSha.toHex).map fun
    | .success dispatch correlation => .ok (dispatch, correlation)
    | .dispatchFailed e => .error (.fromGithubError crates.formats "dispatch" e)
    | .correlateFailed e => .error (.fromCorrelationError crates.formats "correlate" e)

def runMonitorParams (outcome : DispatchOutcome) (correlation : CorrelationOutcome) :
    MonitorParams where
  flowName := params.flowName
  repo := outcome.repo
  workflow := outcome.workflow
  runId := correlation.runId
  jobInterval := params.jobInterval
  runContext := buildRunContext params trigger outcome.repo outcome.workflow outcome.gcitRunId
    outcome.dispatchedAt correlation.runId correlation.summary.runUrl

/-- The last part of the call, once a run is found. -/
def startRun (outcome : DispatchOutcome) (correlation : CorrelationOutcome) : Handled :=
  if env.stateOpen then
    ⟨some (.runStarted params.flowName correlation.runId env.runStartedAt),
      some (runMonitorParams params trigger outcome correlation), .ok ()⟩
  else ⟨none, none, .error (.fromMessage "state_writer" "state writer dropped")⟩

/-- `none` while the call still waits for an answer. -/
def handleTrigger : Option Handled :=
  match dispatchParams crates params trigger env with
  | .error e => some ⟨none, none, .error e⟩
  | .ok dispatchParams =>
    (executeDispatchAndCorrelate crates params trigger env dispatchParams).map fun
      | .error e => ⟨none, none, .error e⟩
      | .ok (outcome, correlation) => startRun params trigger env outcome correlation

/-- The attempts to POST that the call makes. -/
def attemptsOf (dispatchParams : DispatchParams) : List Attempt :=
  attemptsMade crates.http params.client dispatchParams DISPATCH_MAX_ATTEMPTS env.attempts

end Gcit.Flow
