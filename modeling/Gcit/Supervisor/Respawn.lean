import Gcit.Poll.Loop
import Gcit.Supervisor.Registry

/-! # Task exits and respawn requests

`decideRespawn` classifies a join result; `Runtime.handleFlowExit` is what
`handle_flow_exit` does to the registry and to the tokens. What it does besides,
for a first panic, is returned: the panic to record and to schedule a respawn
for.
-/

namespace Gcit.Supervisor

open Std Gcit Gcit.Git Gcit.Poll Gcit.Library.OrderedMap

def RESPAWN_DELAY : Duration := seconds 30

def RESPAWN_MAX_ATTEMPTS : Nat := 30

def RESPAWN_RETRY_INTERVAL : Duration := seconds 1

structure RespawnRequest where
  flow : String
  attempts : Nat
  deriving DecidableEq, Repr

inductive RespawnDecision where
  | unexpectedJoinError
  | cancelled
  | cleanExit
  | panicDuplicate
  | panicFirst
  deriving DecidableEq, Repr

def decideRespawn (joined : Except JoinError FlowExit) (alreadyRespawning : Bool) :
    RespawnDecision :=
  match joined with
  | .error .cancelled => .cancelled
  | .error .other => .unexpectedJoinError
  | .ok exit =>
    if exit.panic = none then .cleanExit
    else if alreadyRespawning then .panicDuplicate
    else .panicFirst

namespace Runtime

def noteExit (r : Runtime) (flow : String) : Runtime :=
  match r.pendingExits[flow]? with
  | none => r
  | some count =>
    let count := if count = 0 then 0 else count - 1
    { r with pendingExits :=
        if count = 0 then r.pendingExits.erase flow else r.pendingExits.insert flow count }

def dropHandle (r : Runtime) (flow : String) : Runtime :=
  { r with handles := r.handles.erase flow }

def startRespawn (r : Runtime) (flow : String) : Runtime :=
  let r := { r with respawningFlows := r.respawningFlows.insert flow }
  match r.handles[flow]? with
  | none => r
  | some handle => (r.dropHandle flow).cancel handle

def handleFlowExit (r : Runtime) (joined : Except JoinError FlowExit) :
    Runtime × Option (String × String) :=
  match joined with
  | .error _ => (r, none)
  | .ok exit =>
    let r := r.noteExit exit.flow
    match decideRespawn joined (r.respawningFlows.contains exit.flow), exit.panic with
    | .cleanExit, _ => (r.dropHandle exit.flow, none)
    | .panicFirst, some message => (r.startRespawn exit.flow, some (exit.flow, message))
    | _, _ => (r, none)

variable {r : Runtime} {t : Task} {j : Except JoinError FlowExit}

@[simp] theorem noteExit_handles (flow : String) : (r.noteExit flow).handles = r.handles := by
  unfold noteExit
  split <;> rfl

@[simp] theorem noteExit_respawningFlows (flow : String) :
    (r.noteExit flow).respawningFlows = r.respawningFlows := by
  unfold noteExit
  split <;> rfl

@[simp] theorem noteExit_joinSet (flow : String) : (r.noteExit flow).joinSet = r.joinSet := by
  unfold noteExit
  split <;> rfl

@[simp] theorem noteExit_cancelled (flow : String) : (r.noteExit flow).cancelled = r.cancelled := by
  unfold noteExit
  split <;> rfl

@[simp] theorem noteExit_nextToken (flow : String) : (r.noteExit flow).nextToken = r.nextToken := by
  unfold noteExit
  split <;> rfl

@[simp] theorem startRespawn_joinSet (flow : String) :
    (r.startRespawn flow).joinSet = r.joinSet := by
  unfold startRespawn
  dsimp only
  split <;> rfl

@[simp] theorem startRespawn_nextToken (flow : String) :
    (r.startRespawn flow).nextToken = r.nextToken := by
  unfold startRespawn
  dsimp only
  split <;> rfl

@[simp] theorem startRespawn_pendingExits (flow : String) :
    (r.startRespawn flow).pendingExits = r.pendingExits := by
  unfold startRespawn
  dsimp only
  split <;> rfl

@[simp] theorem startRespawn_respawningFlows (flow : String) :
    (r.startRespawn flow).respawningFlows = r.respawningFlows.insert flow := by
  unfold startRespawn
  dsimp only
  split <;> rfl

theorem lookup_startRespawn (flow f : String) :
    (r.startRespawn flow).handles[f]? = if flow = f then none else r.handles[f]? := by
  unfold startRespawn
  dsimp only
  split
  · next hnone =>
    split
    · next heq => rw [← heq, hnone]
    · rfl
  · exact lookup_erase r.handles flow f

theorem mem_startRespawn_cancelled {flow : String} {k : Token} :
    k ∈ (r.startRespawn flow).cancelled ↔
      k ∈ r.cancelled ∨ r.handles[flow]? = some ⟨k⟩ := by
  unfold startRespawn
  dsimp only
  split
  · next hnone => simp [hnone]
  · next handle hsome =>
    rw [hsome]
    obtain ⟨token⟩ := handle
    simp [cancel, dropHandle, or_comm, eq_comm]

theorem handleFlowExit_cases (h : t.joined = some j) :
    (∃ e, t.ending = some (.joinError e) ∧ (r.handleFlowExit j).1 = r) ∨
    (t.ending = some .returned ∧ (r.handleFlowExit j).1 = (r.noteExit t.flow).dropHandle t.flow) ∨
    (∃ m, t.ending = some (.panicked m) ∧ t.flow ∈ r.respawningFlows ∧
      (r.handleFlowExit j).1 = r.noteExit t.flow) ∨
    (∃ m, t.ending = some (.panicked m) ∧ t.flow ∉ r.respawningFlows ∧
      (r.handleFlowExit j).1 = (r.noteExit t.flow).startRespawn t.flow) := by
  unfold Task.joined at h
  obtain ⟨ending, hending, h⟩ := Option.map_eq_some_iff.mp h
  cases ending with
  | returned =>
    cases h
    exact .inr (.inl ⟨hending, rfl⟩)
  | joinError e =>
    cases h
    exact .inl ⟨e, hending, rfl⟩
  | panicked m =>
    cases h
    refine .inr (.inr ?_)
    by_cases hmem : t.flow ∈ r.respawningFlows
    · exact .inl ⟨m, hending, hmem, by simp [handleFlowExit, decideRespawn, hmem]⟩
    · exact .inr ⟨m, hending, hmem, by simp [handleFlowExit, decideRespawn, hmem]⟩

end Runtime

end Gcit.Supervisor
