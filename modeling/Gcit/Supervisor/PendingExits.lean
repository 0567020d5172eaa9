import Gcit.Supervisor.Change
import Gcit.Supervisor.Plan

/-! # The count of unjoined exits

`pendingExits` is to hold, for every flow, how many of its tasks are in the join
set. A spawn adds two in eight bits; an exit the select loop joins by name takes
one away. The drain of a reload joins tasks too and counts none of them, and so
does the select loop for an exit that comes without a name.
-/

namespace Gcit.Supervisor

open Std Gcit Gcit.Git Gcit.Poll Gcit.Library Gcit.Library.OrderedMap

namespace Runtime

def pending (r : Runtime) (flow : String) : UInt8 := r.pendingExits[flow]?.getD 0

def unjoined (r : Runtime) (flow : String) : Nat := r.joinSet.countP fun t => t.flow = flow

def PendingExact (r : Runtime) : Prop := ∀ flow, (r.pending flow).toNat = r.unjoined flow

variable {r r' : Runtime}

theorem pending_noteExit (flow f : String) :
    (r.noteExit flow).pending f =
      if flow = f then (if r.pending f = 0 then 0 else r.pending f - 1) else r.pending f := by
  unfold noteExit
  split
  · next hnone =>
    split
    · next heq =>
      have hzero : r.pending f = 0 := by rw [← heq, pending, hnone, Option.getD_none]
      rw [hzero, if_pos rfl]
    · rfl
  · next count hcount =>
    have hpending : r.pending flow = count := by rw [pending, hcount, Option.getD_some]
    generalize hnew : (if count = 0 then 0 else count - 1) = new
    rcases eq_or_ne flow f with rfl | heq
    · rw [if_pos rfl, hpending, hnew]
      change (if new = 0 then _ else _)[flow]?.getD 0 = new
      split
      · next hzero => rw [lookup_erase, if_pos rfl, Option.getD_none, hzero]
      · rw [lookup_insert, if_pos rfl, Option.getD_some]
    · rw [if_neg heq]
      change (if new = 0 then _ else _)[f]?.getD 0 = r.pendingExits[f]?.getD 0
      split
      · rw [lookup_erase, if_neg heq]
      · rw [lookup_insert, if_neg heq]

theorem pending_addPair {flow : FlowConfig} {effective : EffectivePoll} {sha : Option ObjectId}
    {at_ : Option DateTime} (f : String) :
    (r.addPair flow effective sha at_).pending f =
      if flow.name = f then r.pending f + 2 else r.pending f := by
  simp only [pending, addPair]
  rw [lookup_insert]
  split
  · next heq => rw [heq, Option.getD_some]
  · rfl

theorem unjoined_addPair {flow : FlowConfig} {effective : EffectivePoll} {sha : Option ObjectId}
    {at_ : Option DateTime} (f : String) :
    (r.addPair flow effective sha at_).unjoined f =
      if flow.name = f then r.unjoined f + 2 else r.unjoined f := by
  by_cases h : flow.name = f <;> simp [unjoined, addPair, Task.flow, h]

theorem unjoined_finish {id : Token × FlowRole} {e : TaskEnd} (h : r.finish id e = some r')
    (f : String) : r'.unjoined f = r.unjoined f := by
  obtain ⟨g, rfl, hg⟩ := finish_eq_some h
  have hflow : ∀ t, (g t).flow = t.flow := by
    intro t
    obtain h | ⟨-, h⟩ := hg t
    · rw [h]
    · rw [h]
      rfl
  simp only [unjoined, List.countP_map, Function.comp_def, hflow]

theorem unjoined_erase {t : Task} (h : t ∈ r.joinSet) (f : String) :
    r.unjoined f = { r with joinSet := r.joinSet.erase t }.unjoined f +
      if t.flow = f then 1 else 0 := by
  unfold unjoined
  rw [(List.perm_cons_erase h).countP_eq, List.countP_cons]
  simp

end Runtime

/-- The drain joins nothing, an exit the select loop joins comes with a name, and
a flow gets another generation only while its count has room for two more. -/
def CountsExits (d : Daemon) (e : Event) : Prop :=
  (∀ t ∈ d.runtime.joinSet, e.drains ≠ some t.id) ∧
  (∀ t ∈ d.runtime.joinSet, e.joins = some t.id → t.named = true) ∧
  (∀ flow ∈ d.spawns e, d.runtime.unjoined flow.name ≤ 253)

instance decidableCountsExits (d : Daemon) (e : Event) : Decidable (CountsExits d e) :=
  inferInstanceAs (Decidable (_ ∧ _ ∧ _))

namespace Runtime.PendingExact

variable {r r' : Runtime}

theorem of_eq (h : r.PendingExact) (hpending : r'.pendingExits = r.pendingExits)
    (htasks : ∀ f, r'.unjoined f = r.unjoined f) : r'.PendingExact := by
  intro f
  rw [htasks, ← h f, pending, pending, hpending]

theorem addPair (h : r.PendingExact) {flow : FlowConfig} (hroom : r.unjoined flow.name ≤ 253)
    (effective : EffectivePoll) (sha : Option ObjectId) (at_ : Option DateTime) :
    (r.addPair flow effective sha at_).PendingExact := by
  intro f
  rw [pending_addPair, unjoined_addPair]
  split
  · next heq =>
    subst heq
    rw [UInt8.toNat_add, h flow.name]
    exact Nat.mod_eq_of_lt (by change _ + 2 < 256; omega)
  · exact h f

theorem noteExit (h : r.PendingExact) {t : Task} (ht : t ∈ r.joinSet) :
    ({ r with joinSet := r.joinSet.erase t }.noteExit t.flow).PendingExact := by
  intro f
  have hcount := h f
  rw [unjoined_erase ht] at hcount
  rw [pending_noteExit, unjoined, noteExit_joinSet]
  change (if t.flow = f then if r.pending f = 0 then 0 else r.pending f - 1
    else r.pending f).toNat = { r with joinSet := r.joinSet.erase t }.unjoined f
  split
  · next heq =>
    rw [if_pos heq] at hcount
    have hpos : r.pending f ≠ 0 := by
      intro hzero
      rw [hzero] at hcount
      cases hcount
    have hle : (1 : UInt8) ≤ r.pending f := by
      rw [UInt8.le_iff_toNat_le, hcount]
      exact Nat.le_add_left 1 _
    rw [if_neg hpos, UInt8.toNat_sub_of_le _ _ hle, hcount]
    rfl
  · next hne =>
    rw [if_neg hne] at hcount
    exact hcount

theorem exit {d : Daemon} {id : Token × FlowRole} {t : Task} {j : Except JoinError FlowExit}
    (h : d.runtime.PendingExact) (hcounts : CountsExits d (.joinNext id))
    (hjoin : d.runtime.joinNext? id = some (t, j, r)) : (r.handleFlowExit j).1.PendingExact := by
  have hid := joinNext?_id hjoin
  obtain ⟨ht, hj, rfl⟩ := joinNext?_eq_some hjoin
  have hnamed := hcounts.2.1 t ht (congrArg some hid.symm)
  have hexit := h.noteExit ht
  obtain ⟨e, hend, heq⟩ | ⟨-, heq⟩ | ⟨m, -, -, heq⟩ | ⟨m, -, -, heq⟩ :=
    handleFlowExit_cases (r := { d.runtime with joinSet := d.runtime.joinSet.erase t }) hj
  · simp [Task.named, hend] at hnamed
  · rw [heq]
    exact hexit.of_eq rfl fun _ => rfl
  · rw [heq]
    exact hexit
  · rw [heq]
    exact hexit.of_eq (startRespawn_pendingExits _) fun f => by
      rw [unjoined, startRespawn_joinSet, unjoined]

theorem change {crates : Crates} {d : Daemon} {e : Event} {pc : Pc} {config : Config}
    (h : d.runtime.PendingExact) (hcounts : CountsExits d e)
    (hchange : Change crates d e r pc config) : r.PendingExact := by
  cases hchange with
  | frame | drained | timedOut | emitted | pushed | bootSkip | reloadSkip | bootDone | reloadDone =>
    exact h
  | finish hr =>
    refine h.of_eq ?_ (unjoined_finish hr)
    obtain ⟨g, rfl, -⟩ := finish_eq_some hr
    rfl
  | exit hpc hjoin => exact h.exit hcounts hjoin
  | release | reloadFailed => exact h.of_eq rfl fun _ => rfl
  | respawn effective at_ hpc hreq hmem hfree hspawns =>
    exact addPair (r := d.runtime.releaseRespawn _) (h.of_eq rfl fun _ => rfl)
      (hcounts.2.2 _ hspawns) _ _ _
  | @reload newConfig deadline hpc =>
    have hplan := planned crates d.config newConfig d.runtime
    exact h.of_eq hplan.pendingExits fun f => by rw [unjoined, hplan.joinSet, unjoined]
  | drainJoin hpc hjoin =>
    have hid := joinNext?_id hjoin
    obtain ⟨ht, -, rfl⟩ := joinNext?_eq_some hjoin
    exact absurd (congrArg some hid.symm) (hcounts.1 _ ht)
  | bootSpawn effective at_ hpc hspawns => exact h.addPair (hcounts.2.2 _ hspawns) _ _ _
  | reloadSpawn effective at_ hpc hkeep hspawns =>
    exact addPair (r := d.runtime.releaseRespawn _) (h.of_eq rfl fun _ => rfl)
      (hcounts.2.2 _ hspawns) _ _ _

end Runtime.PendingExact

/-- In every run in which only the select loop joins tasks, each of them with a
name, and no flow has more than 253 unjoined tasks when it is spawned again, the
counter is exact; in particular it never wraps. -/
theorem pending_exits_exact (crates : Crates) (config : Config) (disk : Option State)
    (now : DateTime) (observed : List Observation) (events : List Event) (d : Daemon)
    (hrun : Transition.run (Daemon.step crates) (boot config disk now observed) events = some d)
    (hcounts : Transition.Along (Daemon.step crates) CountsExits
      (boot config disk now observed) events) :
    ∀ flow : String, (d.runtime.pendingExits[flow]?.getD 0).toNat =
      d.runtime.joinSet.countP fun t => t.flow = flow := by
  have hboot : (boot config disk now observed).runtime.PendingExact := fun f => by
    simp [boot, Runtime.empty, Runtime.pending, Runtime.unjoined]
  exact Transition.invariant_along (I := fun d => d.runtime.PendingExact)
    (fun _ _ _ h hcounts hstep => h.change hcounts (Daemon.step_change hstep)) hboot hcounts hrun

theorem pending_exits_exact_across_respawn :
    ∃ d, Transition.run (Daemon.step kernelCrates)
        (boot (oneFlow (kernelFlow "linux" "linux.git" "refs/heads/master")) none 0 [])
        [.spawnNext .ready, .finalize, .finish (0, .poll) (.panicked "index out of bounds"),
          .joinNext (0, .poll), .finish (0, .dispatcher) .returned, .joinNext (0, .dispatcher),
          .tick (seconds 30), .watcherFires 0, .respawn .ready] = some d ∧
      d.runtime.joinSet.map Task.id = [(1, .poll), (1, .dispatcher)] ∧
      (d.runtime.pendingExits["linux"]?.getD 0).toNat =
        d.runtime.joinSet.countP fun t => t.flow = "linux" := by
  refine ⟨_, (Option.some_get (by decide +kernel)).symm, by decide +kernel, ?_⟩
  exact pending_exits_exact kernelCrates _ none 0 [] _ _ (Option.some_get _).symm
    (by decide +kernel) "linux"

/-- An ordinary reload restarts the flow: both old tasks end at once and the
drain joins them. The two tasks of the new generation are counted as four. -/
theorem drained_exits_stay_counted :
    ∃ d, Transition.run (Daemon.step kernelCrates)
        (boot (oneFlow (kernelFlow "linux" "linux.git" "refs/heads/master")) none 0 [])
        [.spawnNext .ready, .finalize,
          .reload (.ok (oneFlow (kernelFlow "linux" "linux.git" "refs/heads/next"))),
          .finish (0, .poll) .returned, .finish (0, .dispatcher) .returned,
          .drainJoin (0, .poll), .drainJoin (0, .dispatcher), .drainDone, .pushConfig,
          .spawnNext .ready, .finalize] = some d ∧
      d.pc = .select ∧ (d.runtime.pendingExits["linux"]?.getD 0).toNat = 4 ∧
      (d.runtime.joinSet.countP fun t => t.flow = "linux") = 2 := by
  exact ⟨_, (Option.some_get (by decide +kernel)).symm, by decide +kernel, by decide +kernel,
    by decide +kernel⟩

end Gcit.Supervisor
