import Gcit.Library.OrderedMap
import Gcit.Library.Transition
import Gcit.Supervisor.Diff
import Std.Data.ExtTreeSet

/-! # Tasks, tokens and the flow registry

`FlowRegistry` is the supervisor's own record of its flows. `Runtime` adds what
tokio holds for it: the join set, with the tasks that have ended but were not
joined yet, and which cancel tokens have been cancelled. A token is a number and
every generation of a flow gets the next one.
-/

namespace Gcit.Supervisor

open Std Gcit Gcit.Git Gcit.Poll Gcit.Library Gcit.Library.OrderedMap

abbrev Token := Nat

inductive FlowRole where
  | poll
  | dispatcher
  deriving DecidableEq, Repr

structure FlowExit where
  flow : String
  role : FlowRole
  panic : Option String
  deriving DecidableEq, Repr

inductive JoinError where
  | cancelled
  | other
  deriving DecidableEq, Repr

/-- How a task ends. A panic inside the task's future is caught and named; a join
error is one that escaped, or an abort. -/
inductive TaskEnd where
  | returned
  | panicked (message : String)
  | joinError (e : JoinError)
  deriving DecidableEq, Repr

structure Task where
  config : FlowConfig
  role : FlowRole
  token : Token
  effective : EffectivePoll
  initialLastSha : Option ObjectId
  initialLastDispatchedAt : Option DateTime
  ending : Option TaskEnd
  deriving DecidableEq

namespace Task

def flow (t : Task) : String := t.config.name

def id (t : Task) : Token × FlowRole := (t.token, t.role)

def joined (t : Task) : Option (Except JoinError FlowExit) :=
  t.ending.map fun
    | .returned => .ok ⟨t.flow, t.role, none⟩
    | .panicked message => .ok ⟨t.flow, t.role, some message⟩
    | .joinError e => .error e

end Task

structure FlowHandle where
  cancel : Token
  deriving DecidableEq

structure FlowRegistry where
  handles : ExtTreeMap String FlowHandle
  respawningFlows : ExtTreeSet String
  pendingExits : ExtTreeMap String UInt8
  deriving DecidableEq

structure Runtime extends FlowRegistry where
  joinSet : List Task
  cancelled : List Token
  nextToken : Token
  deriving DecidableEq

namespace Runtime

def empty : Runtime := ⟨⟨∅, ∅, ∅⟩, [], [], 0⟩

/-- The task runs and nobody asked it to stop. -/
def Live (r : Runtime) (t : Task) : Prop := t.ending = none ∧ t.token ∉ r.cancelled

instance decidableLive (r : Runtime) (t : Task) : Decidable (r.Live t) :=
  inferInstanceAs (Decidable (_ ∧ _))

def cancel (r : Runtime) (h : FlowHandle) : Runtime := { r with cancelled := h.cancel :: r.cancelled }

/-- A later panic of the flow is a first panic again. -/
def releaseRespawn (r : Runtime) (flow : String) : Runtime :=
  { r with respawningFlows := r.respawningFlows.erase flow }

def addPair (r : Runtime) (flow : FlowConfig) (effective : EffectivePoll)
    (lastSha : Option ObjectId) (lastDispatchedAt : Option DateTime) : Runtime :=
  let task := fun role => ⟨flow, role, r.nextToken, effective, lastSha, lastDispatchedAt, none⟩
  { r with
    joinSet := r.joinSet ++ [task .poll, task .dispatcher]
    handles := r.handles.insert flow.name ⟨r.nextToken⟩
    pendingExits := r.pendingExits.insert flow.name (r.pendingExits[flow.name]?.getD 0 + 2)
    nextToken := r.nextToken + 1 }

def finish (r : Runtime) (id : Token × FlowRole) (e : TaskEnd) : Option Runtime :=
  if r.joinSet.any fun t => t.id == id && t.ending == none then
    some { r with joinSet := r.joinSet.map fun t =>
      if t.id = id ∧ t.ending = none then { t with ending := some e } else t }
  else none

/-- `join_next`, with the ended task it takes out of the set chosen by its id. -/
def joinNext? (r : Runtime) (id : Token × FlowRole) :
    Option (Task × Except JoinError FlowExit × Runtime) :=
  (r.joinSet.find? fun t => t.id == id && t.ending != none).bind fun t =>
    t.joined.map fun j => (t, j, { r with joinSet := r.joinSet.erase t })

variable {r r' : Runtime} {t : Task} {id : Token × FlowRole} {j : Except JoinError FlowExit}

theorem joinNext?_eq_some (h : r.joinNext? id = some (t, j, r')) :
    t ∈ r.joinSet ∧ t.joined = some j ∧ r' = { r with joinSet := r.joinSet.erase t } := by
  unfold joinNext? at h
  obtain ⟨u, hfind, h⟩ := Option.bind_eq_some_iff.mp h
  obtain ⟨k, hk, h⟩ := Option.map_eq_some_iff.mp h
  cases h
  exact ⟨List.mem_of_find?_eq_some hfind, hk, rfl⟩

theorem joinNext?_id (h : r.joinNext? id = some (t, j, r')) : t.id = id := by
  unfold joinNext? at h
  obtain ⟨u, hfind, h⟩ := Option.bind_eq_some_iff.mp h
  obtain ⟨k, -, h⟩ := Option.map_eq_some_iff.mp h
  cases h
  have hu := List.find?_some hfind
  simp only [Bool.and_eq_true, beq_iff_eq] at hu
  exact hu.1

theorem finish_eq_some {e : TaskEnd} (h : r.finish id e = some r') :
    ∃ g : Task → Task, r' = { r with joinSet := r.joinSet.map g } ∧
      ∀ t, g t = t ∨ t.ending = none ∧ g t = { t with ending := some e } := by
  obtain ⟨-, rfl⟩ := Transition.guard_eq_some.mp h
  refine ⟨_, rfl, fun t => ?_⟩
  split
  · next ht => exact .inr ⟨ht.2, rfl⟩
  · exact .inl rfl

@[simp] theorem lookup_addPair_handles {flow : FlowConfig} {effective : EffectivePoll}
    {sha : Option ObjectId} {at_ : Option DateTime} (f : String) :
    (r.addPair flow effective sha at_).handles[f]? =
      if flow.name = f then some ⟨r.nextToken⟩ else r.handles[f]? :=
  lookup_insert r.handles flow.name f _

theorem mem_addPair {flow : FlowConfig} {effective : EffectivePoll} {sha : Option ObjectId}
    {at_ : Option DateTime} :
    t ∈ (r.addPair flow effective sha at_).joinSet ↔ t ∈ r.joinSet ∨
      ∃ role, t = ⟨flow, role, r.nextToken, effective, sha, at_, none⟩ := by
  simp only [addPair, List.mem_append, List.mem_cons, List.not_mem_nil, or_false]
  refine or_congr_right ⟨?_, ?_⟩
  · rintro (rfl | rfl)
    · exact ⟨.poll, rfl⟩
    · exact ⟨.dispatcher, rfl⟩
  · rintro ⟨role, rfl⟩
    cases role
    · exact .inl rfl
    · exact .inr rfl

end Runtime

end Gcit.Supervisor
