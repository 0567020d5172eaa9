import Gcit.Git.ObjectId
import Gcit.Library.OrderedMap

/-! # The daemon state and its update rules

`State.apply` folds one `StateUpdate` into the persisted state. Warnings are
logged only and leave no trace in the state, so they are not modelled; every
branch that logs and returns is.
-/

namespace Gcit

open Std Gcit.Git Gcit.Library.OrderedMap

/-- Wall-clock instants and durations are counted in nanoseconds. -/
abbrev DateTime := Int

abbrev Duration := Nat

def SCHEMA_VERSION : UInt32 := 1

def NOTIFIED_RUNS_CAP : Nat := 100

structure RunState where
  runId : UInt64
  startedAt : DateTime
  conclusion : Option String
  completedAt : Option DateTime
  deriving DecidableEq, Repr

structure FlowState where
  lastSha : Option String := none
  lastPollAt : Option DateTime := none
  lastDispatchedAt : Option DateTime := none
  cooldownUntil : Option DateTime := none
  activeRuns : List RunState := []
  notifiedRuns : List RunState := []
  deriving DecidableEq, Repr, Inhabited

structure State where
  schema : UInt32
  flows : ExtTreeMap String FlowState
  deriving DecidableEq

def State.default : State := ⟨SCHEMA_VERSION, ∅⟩

inductive StateUpdate where
  | pollObservation (flow : String) (lastSha : ObjectId) (lastPollAt : DateTime)
      (lastDispatchedAt cooldownUntil : Option DateTime)
  | pollTimestamp (flow : String) (lastPollAt : DateTime)
  | runStarted (flow : String) (runId : UInt64) (startedAt : DateTime)
  | runFinished (flow : String) (runId : UInt64) (conclusion : String) (completedAt : DateTime)
  | flowRemoved (flow : String)
  deriving DecidableEq

def StateUpdate.flow : StateUpdate → String
  | .pollObservation flow .. | .pollTimestamp flow _ | .runStarted flow ..
  | .runFinished flow .. | .flowRemoved flow => flow

namespace FlowState

def observe (entry : FlowState) (lastSha : ObjectId) (lastPollAt : DateTime)
    (lastDispatchedAt cooldownUntil : Option DateTime) : FlowState :=
  { entry with
    lastSha := some lastSha.toHex
    lastPollAt := some lastPollAt
    lastDispatchedAt := if lastDispatchedAt.isSome then lastDispatchedAt else entry.lastDispatchedAt
    cooldownUntil := if cooldownUntil.isSome then cooldownUntil else entry.cooldownUntil }

def startRun (entry : FlowState) (runId : UInt64) (startedAt : DateTime) : FlowState :=
  if entry.activeRuns.any (fun r => r.runId == runId) then entry
  else { entry with activeRuns := entry.activeRuns ++ [⟨runId, startedAt, none, none⟩] }

/-- `none` when the run is not active: the source warns and drops the update. -/
def finishRun (entry : FlowState) (runId : UInt64) (conclusion : String) (completedAt : DateTime) :
    Option FlowState :=
  match entry.activeRuns.findIdx? (fun r => r.runId == runId) with
  | none => none
  | some pos => (entry.activeRuns[pos]?).map fun run =>
    let notified := entry.notifiedRuns ++
      [{ run with conclusion := some conclusion, completedAt := some completedAt }]
    { entry with
      activeRuns := entry.activeRuns.eraseIdx pos
      notifiedRuns := if notified.length > NOTIFIED_RUNS_CAP
        then notified.drop (notified.length - NOTIFIED_RUNS_CAP) else notified }

/-- The effect of an update on the entry of the flow it names. -/
def after (entry : Option FlowState) : StateUpdate → Option FlowState
  | .pollObservation _ sha at_ dispatched cooldown =>
    some ((entry.getD {}).observe sha at_ dispatched cooldown)
  | .pollTimestamp _ at_ => some { entry.getD {} with lastPollAt := some at_ }
  | .runStarted _ runId at_ => some ((entry.getD {}).startRun runId at_)
  | .runFinished _ runId conclusion at_ =>
    entry.map fun e => (e.finishRun runId conclusion at_).getD e
  | .flowRemoved _ => none

end FlowState

namespace State

def entry (s : State) (flow : String) : FlowState := s.flows[flow]?.getD {}

def setEntry (s : State) (flow : String) (e : FlowState) : State :=
  { s with flows := s.flows.insert flow e }

def applyPollObservation (s : State) (flow : String) (lastSha : ObjectId) (lastPollAt : DateTime)
    (lastDispatchedAt cooldownUntil : Option DateTime) : State :=
  s.setEntry flow ((s.entry flow).observe lastSha lastPollAt lastDispatchedAt cooldownUntil)

def applyPollTimestamp (s : State) (flow : String) (lastPollAt : DateTime) : State :=
  s.setEntry flow { s.entry flow with lastPollAt := some lastPollAt }

def applyRunStarted (s : State) (flow : String) (runId : UInt64) (startedAt : DateTime) : State :=
  s.setEntry flow ((s.entry flow).startRun runId startedAt)

def applyRunFinished (s : State) (flow : String) (runId : UInt64) (conclusion : String)
    (completedAt : DateTime) : State :=
  match s.flows[flow]? with
  | none => s
  | some entry => match entry.finishRun runId conclusion completedAt with
    | none => s
    | some entry => s.setEntry flow entry

def applyFlowRemoved (s : State) (flow : String) : State :=
  { s with flows := s.flows.erase flow }

def apply (s : State) : StateUpdate → State
  | .pollObservation flow sha at_ dispatched cooldown =>
    s.applyPollObservation flow sha at_ dispatched cooldown
  | .pollTimestamp flow at_ => s.applyPollTimestamp flow at_
  | .runStarted flow runId at_ => s.applyRunStarted flow runId at_
  | .runFinished flow runId conclusion at_ => s.applyRunFinished flow runId conclusion at_
  | .flowRemoved flow => s.applyFlowRemoved flow

def applyAll (s : State) (us : List StateUpdate) : State := us.foldl apply s

@[simp] theorem applyAll_nil (s : State) : s.applyAll [] = s := rfl

theorem applyAll_append (s : State) (us vs : List StateUpdate) :
    s.applyAll (us ++ vs) = (s.applyAll us).applyAll vs := List.foldl_append

theorem applyAll_concat (s : State) (us : List StateUpdate) (u : StateUpdate) :
    s.applyAll (us ++ [u]) = (s.applyAll us).apply u := by
  rw [applyAll_append]
  rfl

theorem lookup_setEntry (s : State) (flow f : String) (e : FlowState) :
    (s.setEntry flow e).flows[f]? = if flow = f then some e else s.flows[f]? :=
  lookup_insert s.flows flow f e

theorem lookup_apply_self (s : State) (u : StateUpdate) :
    (s.apply u).flows[u.flow]? = FlowState.after s.flows[u.flow]? u := by
  cases u with
  | pollObservation flow | pollTimestamp flow | runStarted flow =>
    simp [apply, applyPollObservation, applyPollTimestamp, applyRunStarted, lookup_setEntry, entry,
      StateUpdate.flow, FlowState.after]
  | runFinished flow runId conclusion at_ =>
    simp only [apply, applyRunFinished, StateUpdate.flow, FlowState.after]
    cases hf : s.flows[flow]? with
    | none => simp [hf]
    | some e => cases he : e.finishRun runId conclusion at_ <;> simp [hf, he, lookup_setEntry]
  | flowRemoved flow => simp [apply, applyFlowRemoved, StateUpdate.flow, FlowState.after]

theorem lookup_apply_of_ne (s : State) {u : StateUpdate} {f : String} (h : u.flow ≠ f) :
    (s.apply u).flows[f]? = s.flows[f]? := by
  cases u with
  | pollObservation flow | pollTimestamp flow | runStarted flow =>
    have hf : flow ≠ f := h
    simp [apply, applyPollObservation, applyPollTimestamp, applyRunStarted, lookup_setEntry, hf]
  | runFinished flow runId conclusion at_ =>
    have hf : flow ≠ f := h
    simp only [apply, applyRunFinished]
    repeat' split
    · rfl
    · rfl
    · rw [lookup_setEntry, if_neg hf]
  | flowRemoved flow =>
    have hf : flow ≠ f := h
    simp [apply, applyFlowRemoved, lookup_erase, hf]

theorem lookup_apply (s : State) (u : StateUpdate) (f : String) :
    (s.apply u).flows[f]? = if u.flow = f then FlowState.after s.flows[f]? u else s.flows[f]? := by
  split
  · next h => rw [← h, lookup_apply_self]
  · next h => exact lookup_apply_of_ne s h

end State

end Gcit
