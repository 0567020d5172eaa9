import Gcit.Library.Trace
import Gcit.State.Apply

/-! # What the state of a flow summarises

The reference reading of an update history, stated without any accumulator: a
run is active when one of its starts is not followed by its finish, a run is
completed by a finish that finds it active, and every other field holds what
the last update that sets it set. `State.apply` maintains this summary.
-/

namespace Gcit.History

open Gcit.Library.Trace

def isRemoval : StateUpdate → Bool
  | .flowRemoved _ => true
  | _ => false

def sinceRemoved (f : String) (us : List StateUpdate) : List StateUpdate :=
  (us.filter fun u => u.flow = f).rtakeWhile fun u => !isRemoval u

def starts (id : UInt64) : StateUpdate → Bool
  | .runStarted _ runId _ => runId == id
  | _ => false

def finishes (id : UInt64) : StateUpdate → Bool
  | .runFinished _ runId _ _ => runId == id
  | _ => false

def isOpen (id : UInt64) (h : List StateUpdate) : Bool :=
  (splits h).any fun x => starts id x.2.1 && !x.2.2.any (finishes id)

/-- The runs left open, each at its first start that no finish follows. -/
def activeRuns (h : List StateUpdate) : List RunState :=
  (splits h).filterMap fun x => match x.2.1 with
    | .runStarted _ id startedAt =>
      if x.2.2.any (finishes id) || isOpen id x.1 then none else some ⟨id, startedAt, none, none⟩
    | _ => none

/-- Every finish that found its run open, with that run completed by it. -/
def completedRuns (h : List StateUpdate) : List RunState :=
  (splits h).filterMap fun x => match x.2.1 with
    | .runFinished _ id conclusion completedAt =>
      ((activeRuns x.1).find? fun r => r.runId == id).map fun r =>
        { r with conclusion := some conclusion, completedAt := some completedAt }
    | _ => none

def setsSha : StateUpdate → Option String
  | .pollObservation _ sha .. => some sha.toHex
  | _ => none

def setsPollAt : StateUpdate → Option DateTime
  | .pollObservation _ _ at_ .. | .pollTimestamp _ at_ => some at_
  | _ => none

def setsDispatchedAt : StateUpdate → Option DateTime
  | .pollObservation _ _ _ dispatched _ => dispatched
  | _ => none

def setsCooldownUntil : StateUpdate → Option DateTime
  | .pollObservation _ _ _ _ cooldown => cooldown
  | _ => none

def summary (h : List StateUpdate) : FlowState where
  lastSha := latest setsSha h
  lastPollAt := latest setsPollAt h
  lastDispatchedAt := latest setsDispatchedAt h
  cooldownUntil := latest setsCooldownUntil h
  activeRuns := activeRuns h
  notifiedRuns := (completedRuns h).rtake NOTIFIED_RUNS_CAP

theorem sinceRemoved_concat_of_ne {f : String} {u : StateUpdate} (us : List StateUpdate)
    (h : u.flow ≠ f) : sinceRemoved f (us ++ [u]) = sinceRemoved f us := by
  simp [sinceRemoved, h]

theorem sinceRemoved_concat_self (us : List StateUpdate) (u : StateUpdate) :
    sinceRemoved u.flow (us ++ [u]) =
      if isRemoval u then [] else sinceRemoved u.flow us ++ [u] := by
  simp only [sinceRemoved, List.filter_append, List.filter_cons, decide_true, if_true,
    List.filter_nil, List.rtakeWhile_concat]
  cases isRemoval u <;> rfl

theorem isOpen_concat (id : UInt64) (h : List StateUpdate) (u : StateUpdate) :
    isOpen id (h ++ [u]) = ((isOpen id h && !finishes id u) || starts id u) := by
  simp only [isOpen, splits_concat, List.any_append, List.any_map, Function.comp_def, List.any_cons,
    List.any_nil, Bool.or_false, Bool.not_or, Bool.not_false, Bool.and_true]
  congr 1
  induction splits h with
  | nil => rfl
  | cons x xs ih =>
    simp only [List.any_cons, ih]
    cases starts id x.2.1 <;> cases x.2.2.any (finishes id) <;> cases finishes id u <;> simp

def opened (h : List StateUpdate) : StateUpdate → List RunState
  | .runStarted _ id startedAt => if isOpen id h then [] else [⟨id, startedAt, none, none⟩]
  | _ => []

theorem activeRuns_concat (h : List StateUpdate) (u : StateUpdate) :
    activeRuns (h ++ [u]) = (activeRuns h).filter (fun r => !finishes r.runId u) ++ opened h u := by
  have hnew : [(h, u, ([] : List StateUpdate))].filterMap (fun x => match x.2.1 with
      | .runStarted _ id startedAt =>
        if x.2.2.any (finishes id) || isOpen id x.1 then none else some ⟨id, startedAt, none, none⟩
      | _ => none) = opened h u := by
    cases u with
    | runStarted flow id at_ => cases ho : isOpen id h <;> simp [opened, ho]
    | _ => rfl
  rw [activeRuns, splits_concat, List.filterMap_append, hnew, List.filterMap_map, activeRuns,
    List.filter_filterMap]
  congr 1
  apply List.filterMap_congr
  rintro ⟨past, v, future⟩ -
  cases v with
  | runStarted flow id at_ =>
    simp only [Function.comp_apply, List.any_append, List.any_cons, List.any_nil, Bool.or_false]
    cases future.any (finishes id) <;> cases isOpen id past <;> cases hu : finishes id u <;>
      simp [Option.filter, hu]
  | _ => rfl

theorem any_activeRuns (h : List StateUpdate) (id : UInt64) :
    (activeRuns h).any (fun r => r.runId == id) = isOpen id h := by
  induction h using List.reverseRecOn with
  | nil => rfl
  | append_singleton h u ih =>
    rw [activeRuns_concat, isOpen_concat, ← ih, List.any_append]
    cases u with
    | runStarted flow runId at_ =>
      rcases eq_or_ne runId id with rfl | hid
      · cases ho : isOpen runId h <;> simp [opened, starts, finishes, ih, ho]
      · cases ho : isOpen runId h <;> simp [opened, starts, finishes, ho, hid]
    | runFinished flow runId conclusion at_ =>
      rw [Bool.eq_iff_iff]
      simp only [opened, starts, finishes, List.any_filter, List.any_nil, Bool.or_false,
        List.any_eq_true, Bool.and_eq_true, beq_iff_eq]
      constructor
      · rintro ⟨r, hr, hne, rfl⟩
        exact ⟨⟨r, hr, rfl⟩, hne⟩
      · rintro ⟨⟨r, hr, rfl⟩, hne⟩
        exact ⟨r, hr, hne, rfl⟩
    | _ => simp [opened, starts, finishes]

theorem nodup_activeRuns (h : List StateUpdate) : ((activeRuns h).map RunState.runId).Nodup := by
  induction h using List.reverseRecOn with
  | nil => exact List.nodup_nil
  | append_singleton h u ih =>
    have hsub : (((activeRuns h).filter fun r => !finishes r.runId u).map RunState.runId).Nodup :=
      ih.sublist (List.filter_sublist.map _)
    rw [activeRuns_concat, List.map_append]
    cases u with
    | runStarted flow runId at_ =>
      cases ho : isOpen runId h with
      | true => simpa [opened, ho] using hsub
      | false =>
        have hnot : runId ∉ (activeRuns h).map RunState.runId := by
          intro hmem
          obtain ⟨r, hr, hid⟩ := List.mem_map.mp hmem
          have hany : (activeRuns h).any (fun r => r.runId == runId) = true :=
            List.any_eq_true.mpr ⟨r, hr, by simpa using hid⟩
          rw [any_activeRuns, ho] at hany
          cases hany
        simp only [opened, ho, finishes, Bool.not_false, List.filter_true, Bool.false_eq_true,
          if_false, List.map_cons, List.map_nil]
        exact List.nodup_append.mpr ⟨ih, by simp, by
          intro a ha b hb
          rw [List.mem_singleton.mp hb]
          exact fun hab => hnot (hab ▸ ha)⟩
    | _ => simpa [opened] using hsub

theorem completedRuns_concat (h : List StateUpdate) (u : StateUpdate) :
    completedRuns (h ++ [u]) = completedRuns h ++ match u with
      | .runFinished _ id conclusion completedAt =>
        (((activeRuns h).find? fun r => r.runId == id).map fun r =>
          { r with conclusion := some conclusion, completedAt := some completedAt }).toList
      | _ => [] := by
  rw [completedRuns, splits_concat, List.filterMap_append, List.filterMap_map, completedRuns]
  congr 1
  cases u with
  | runFinished flow id conclusion at_ =>
    cases hf : (activeRuns h).find? fun r => r.runId == id <;> simp [hf]
  | _ => rfl

theorem finishRun_eq {e : FlowState} (hn : (e.activeRuns.map RunState.runId).Nodup) (id : UInt64)
    (conclusion : String) (at_ : DateTime) :
    e.finishRun id conclusion at_ = (e.activeRuns.find? fun r => r.runId == id).map fun r =>
      { e with
        activeRuns := e.activeRuns.filter fun r => r.runId != id
        notifiedRuns := (e.notifiedRuns ++
          [{ r with conclusion := some conclusion, completedAt := some at_ }]).rtake
            NOTIFIED_RUNS_CAP } := by
  have herase := eraseP_eq_filter RunState.runId id hn
  rw [List.eraseP_eq_eraseIdx] at herase
  rw [List.find?_eq_bind_findIdx?_getElem?]
  unfold FlowState.finishRun
  cases hp : e.activeRuns.findIdx? fun r => r.runId == id with
  | none => rfl
  | some pos =>
    rw [hp] at herase
    simp only [Option.bind_some] at herase ⊢
    congr 1
    funext r
    rw [herase]
    congr 1
    split
    · rfl
    · next hlen => rw [List.rtake, Nat.sub_eq_zero_of_le (Nat.le_of_not_lt hlen), List.drop_zero]

theorem summary_removed (u : StateUpdate) (h : isRemoval u = true) (e : Option FlowState) :
    (FlowState.after e u).getD {} = summary [] := by
  cases u with
  | flowRemoved => rfl
  | _ => cases h

theorem summary_after {e : Option FlowState} {h : List StateUpdate} (he : e.getD {} = summary h)
    {u : StateUpdate} (hu : isRemoval u = false) :
    (FlowState.after e u).getD {} = summary (h ++ [u]) := by
  cases u with
  | pollObservation flow sha at_ dispatched cooldown =>
    simp only [FlowState.after, FlowState.observe, Option.getD_some, he, summary, latest_concat,
      activeRuns_concat, completedRuns_concat, setsSha, setsPollAt, setsDispatchedAt,
      setsCooldownUntil, finishes, opened, List.append_nil, Option.some_or]
    cases dispatched <;> cases cooldown <;> simp
  | pollTimestamp flow at_ =>
    simp [FlowState.after, he, summary, latest_concat, activeRuns_concat, completedRuns_concat,
      setsSha, setsPollAt, setsDispatchedAt, setsCooldownUntil, finishes, opened]
  | runStarted flow id at_ =>
    have hany := any_activeRuns h id
    simp only [FlowState.after, FlowState.startRun, Option.getD_some, he, summary, hany,
      latest_concat, activeRuns_concat, completedRuns_concat, setsSha, setsPollAt, setsDispatchedAt,
      setsCooldownUntil, finishes, opened, List.append_nil, Option.none_or]
    cases isOpen id h <;> simp
  | runFinished flow id conclusion at_ =>
    have hmap : (FlowState.after e (.runFinished flow id conclusion at_)).getD {} =
        ((summary h).finishRun id conclusion at_).getD (summary h) := by
      rw [← he]
      cases e <;> rfl
    have hactive : (activeRuns h).filter (fun r => !finishes r.runId
        (.runFinished flow id conclusion at_)) = (activeRuns h).filter fun r => r.runId != id := by
      simp [finishes, bne, Bool.beq_comm]
    rw [hmap, finishRun_eq (nodup_activeRuns h)]
    simp only [summary, latest_concat, activeRuns_concat, completedRuns_concat, setsSha, setsPollAt,
      setsDispatchedAt, setsCooldownUntil, opened, List.append_nil, Option.none_or, hactive]
    cases hf : (activeRuns h).find? fun r => r.runId == id with
    | none =>
      have hself : (activeRuns h).filter (fun r => r.runId != id) = activeRuns h :=
        List.filter_eq_self.mpr fun r hr => by simpa using List.find?_eq_none.mp hf r hr
      simp [hself]
    | some r => simp [rtake_rtake_concat]
  | flowRemoved => cases hu

theorem entry_eq_summary (us : List StateUpdate) (f : String) :
    (State.default.applyAll us).entry f = summary (sinceRemoved f us) := by
  unfold State.entry
  induction us using List.reverseRecOn with
  | nil => rfl
  | append_singleton us u ih =>
    rw [State.applyAll_concat, State.lookup_apply]
    rcases eq_or_ne u.flow f with rfl | hf
    · rw [if_pos rfl, sinceRemoved_concat_self]
      cases hu : isRemoval u with
      | true => exact summary_removed u hu _
      | false => exact summary_after ih hu
    · rw [if_neg hf, sinceRemoved_concat_of_ne us hf]
      exact ih

theorem isOpen_iff (id : UInt64) (h : List StateUpdate) :
    isOpen id h = true ↔ ∃ past flow startedAt future,
      h = past ++ .runStarted flow id startedAt :: future ∧ ∀ u ∈ future, finishes id u = false := by
  simp only [isOpen, List.any_eq_true, Bool.and_eq_true, Bool.not_eq_true', List.any_eq_false,
    Bool.not_eq_true]
  constructor
  · rintro ⟨⟨past, u, future⟩, hmem, hstart, hfuture⟩
    cases u with
    | runStarted flow runId startedAt =>
      obtain rfl : runId = id := by simpa [starts] using hstart
      exact ⟨past, flow, startedAt, future, mem_splits.mp hmem, hfuture⟩
    | _ => cases hstart
  · rintro ⟨past, flow, startedAt, future, rfl, hfuture⟩
    exact ⟨(past, .runStarted flow id startedAt, future), mem_splits.mpr rfl, by simp [starts],
      hfuture⟩

/-- The persisted entry of a flow is the summary of its updates since the flow
was last removed; its active runs are those with a start that no finish of the
run follows; an observation without a dispatch keeps the cooldown clock. -/
theorem apply_computes_summary (us : List StateUpdate) (f : String) :
    (State.default.applyAll us).entry f = summary (sinceRemoved f us) ∧
    (∀ id, (∃ r ∈ ((State.default.applyAll us).entry f).activeRuns, r.runId = id) ↔
      ∃ past flow startedAt future,
        sinceRemoved f us = past ++ .runStarted flow id startedAt :: future ∧
        ∀ u ∈ future, finishes id u = false) ∧
    ∀ sha at_ cooldown,
      (((State.default.applyAll us).apply
        (.pollObservation f sha at_ none cooldown)).entry f).lastDispatchedAt =
      ((State.default.applyAll us).entry f).lastDispatchedAt := by
  refine ⟨entry_eq_summary us f, ?_, ?_⟩
  · intro id
    rw [entry_eq_summary, ← isOpen_iff, ← any_activeRuns]
    simp [summary]
  · intro sha at_ cooldown
    have hself := State.lookup_apply_self (State.default.applyAll us)
      (.pollObservation f sha at_ none cooldown)
    simp only [StateUpdate.flow, FlowState.after] at hself
    rw [State.entry, hself]
    rfl

end Gcit.History
