import Gcit.Supervisor.Registry

/-! # Reload actions

`computeReloadActions` classifies every name of the old configuration, the new
one and the registry. `applyActionsToRegistry` walks the actions over the
handles, which it first takes out of the registry, and returns what the rest of
the reload has to do.
-/

namespace Gcit.Supervisor

open Std Gcit Gcit.Library.OrderedMap

inductive ReloadAction where
  | keep (name : String)
  | remove (name : String) (liveHandle : Bool)
  | disable (name : String) (urlChanged : Bool)
  | restart (name : String) (urlChanged : Bool)
  | spawn (name : String)
  deriving DecidableEq, Repr

def ReloadAction.name : ReloadAction → String
  | .keep name | .remove name _ | .disable name _ | .restart name _ | .spawn name => name

/-- The action of one name. The orphan cases, a live handle the old configuration
does not name, are classified as the source does although no run reaches them. -/
def classify (crates : Crates) (old new : Option FlowConfig) (live : Bool) (name : String) :
    Option ReloadAction :=
  match new, old, live with
  | none, some _, live => some (.remove name live)
  | none, none, true => some (.remove name true)
  | none, none, false => none
  | some nf, some of, true =>
    if !nf.enabled then some (.disable name (of.source.url ≠ nf.source.url))
    else if flowConfigUnchanged crates of nf then some (.keep name)
    else some (.restart name (of.source.url ≠ nf.source.url))
  | some nf, none, true =>
    if !nf.enabled then some (.disable name false) else some (.restart name false)
  | some nf, _, false => if !nf.enabled then none else some (.spawn name)

def reloadNames (old new : Config) (handles : ExtTreeMap String FlowHandle) : List String :=
  ((((∅ : ExtTreeSet String).insertMany (old.flow.map FlowConfig.name)).insertMany
    (new.flow.map FlowConfig.name)).insertMany handles.keys).toList

def computeReloadActions (crates : Crates) (old new : Config)
    (handles : ExtTreeMap String FlowHandle) : List ReloadAction :=
  (reloadNames old new handles).filterMap fun name =>
    classify crates (old.find? name) (new.find? name) (handles[name]?).isSome name

structure ReloadPlan where
  toKeep : ExtTreeSet String
  urlResets : List String
  removedFlows : List String
  deriving DecidableEq

/-- The loop variables: the handles not looked at yet, the runtime and the plan. -/
structure Walk where
  drained : ExtTreeMap String FlowHandle
  runtime : Runtime
  plan : ReloadPlan

namespace Walk

def cancelDrained (w : Walk) (name : String) : Walk :=
  match w.drained[name]? with
  | none => w
  | some handle => { w with drained := w.drained.erase name, runtime := w.runtime.cancel handle }

def keepDrained (w : Walk) (name : String) : Walk :=
  match w.drained[name]? with
  | none => w
  | some handle =>
    { w with
      drained := w.drained.erase name
      runtime := { w.runtime with handles := w.runtime.handles.insert name handle } }

def releaseRespawn (w : Walk) (name : String) : Walk :=
  { w with runtime := w.runtime.releaseRespawn name }

def addKeep (w : Walk) (name : String) : Walk :=
  { w with plan := { w.plan with toKeep := w.plan.toKeep.insert name } }

def addRemoved (w : Walk) (name : String) : Walk :=
  { w with plan := { w.plan with removedFlows := w.plan.removedFlows ++ [name] } }

def addReset (w : Walk) (name : String) (urlChanged : Bool) : Walk :=
  if urlChanged then { w with plan := { w.plan with urlResets := w.plan.urlResets ++ [name] } } else w

def step (w : Walk) : ReloadAction → Walk
  | .keep name => (w.addKeep name).keepDrained name
  | .remove name true => ((w.cancelDrained name).addRemoved name).releaseRespawn name
  | .remove name false => (w.addRemoved name).releaseRespawn name
  | .disable name urlChanged =>
    ((w.cancelDrained name).addReset name urlChanged).releaseRespawn name
  | .restart name urlChanged =>
    ((w.cancelDrained name).addReset name urlChanged).releaseRespawn name
  | .spawn _ => w

def start (r : Runtime) : Walk := ⟨r.handles, { r with handles := ∅ }, ⟨∅, [], []⟩⟩

end Walk

/-- Handles that no action named are orphans and are cancelled too. -/
def applyActionsToRegistry (actions : List ReloadAction) (r : Runtime) : Runtime × ReloadPlan :=
  let w := actions.foldl Walk.step (.start r)
  let orphans := w.drained.toList.map fun entry => entry.2.cancel
  ({ w.runtime with cancelled := orphans ++ w.runtime.cancelled }, w.plan)

end Gcit.Supervisor
