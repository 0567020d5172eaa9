import Mathlib.Data.List.Nodup
import Gcit.State.History

/-! # A run is recorded once

`active_runs` and `notified_runs` are meant to hold a run in one place and once.
A start is refused while the run is active. A start of a run that was seen
through to completion is not, although the list of completed runs is there to
recognise it; the run is then recorded as active and as notified.
-/

namespace Gcit

namespace FlowState

def activeIds (e : FlowState) : List UInt64 := e.activeRuns.map RunState.runId

theorem startRun_activeIds (e : FlowState) (id : UInt64) (at_ : DateTime) :
    (e.startRun id at_).activeIds =
      if id ∈ e.activeIds then e.activeIds else e.activeIds ++ [id] := by
  have hactive : (e.activeRuns.any fun r => r.runId == id) = true ↔ id ∈ e.activeIds := by
    simp [activeIds]
  unfold startRun
  split
  · next h => rw [if_pos (hactive.mp h)]
  · next h =>
    rw [if_neg (mt hactive.mpr h)]
    simp [activeIds]

theorem finishRun_activeIds {e : FlowState} (h : e.activeIds.Nodup) (id : UInt64)
    (conclusion : String) (at_ : DateTime) :
    ((e.finishRun id conclusion at_).getD e).activeIds = e.activeIds.filter (· != id) := by
  rw [History.finishRun_eq h]
  cases hfind : e.activeRuns.find? fun r => r.runId == id with
  | none =>
    refine (List.filter_eq_self.mpr ?_).symm
    intro id' hid'
    obtain ⟨r, hr, rfl⟩ := List.mem_map.mp hid'
    simpa using List.find?_eq_none.mp hfind r hr
  | some run =>
    simp only [Option.map_some, Option.getD_some, activeIds, List.filter_map]
    rfl

def activeIdsAfter (ids : List UInt64) : StateUpdate → List UInt64
  | .runStarted _ id _ => if id ∈ ids then ids else ids ++ [id]
  | .runFinished _ id .. => ids.filter (· != id)
  | .flowRemoved _ => []
  | .pollObservation .. | .pollTimestamp .. => ids

theorem activeIdsAfter_nodup {ids : List UInt64} (h : ids.Nodup) (u : StateUpdate) :
    (activeIdsAfter ids u).Nodup := by
  cases u with
  | pollObservation | pollTimestamp => exact h
  | runStarted flow id at_ =>
    simp only [activeIdsAfter]
    split
    · exact h
    · next hnew => simpa using List.Nodup.concat hnew h
  | runFinished flow id => exact h.filter _
  | flowRemoved => exact List.nodup_nil

theorem after_activeIds {entry : Option FlowState} (h : (entry.getD {}).activeIds.Nodup)
    (u : StateUpdate) :
    ((after entry u).getD {}).activeIds = activeIdsAfter (entry.getD {}).activeIds u := by
  cases u with
  | pollObservation | pollTimestamp | flowRemoved => rfl
  | runStarted flow id at_ => exact startRun_activeIds _ id at_
  | runFinished flow id conclusion at_ =>
    cases entry with
    | none => rfl
    | some e => exact finishRun_activeIds h id conclusion at_

end FlowState

theorem State.activeIds_apply {s : State} (h : ∀ f, (s.entry f).activeIds.Nodup) (u : StateUpdate)
    (f : String) :
    ((s.apply u).entry f).activeIds = if u.flow = f then
      FlowState.activeIdsAfter (s.entry f).activeIds u else (s.entry f).activeIds := by
  unfold State.entry
  rw [State.lookup_apply]
  split
  · exact FlowState.after_activeIds (h f) u
  · rfl

theorem State.nodup_activeIds_apply {s : State} (h : ∀ f, (s.entry f).activeIds.Nodup)
    (u : StateUpdate) (f : String) : ((s.apply u).entry f).activeIds.Nodup := by
  rw [activeIds_apply h]
  split
  · exact FlowState.activeIdsAfter_nodup (h f) u
  · exact h f

theorem State.mem_activeIds_of_apply {s : State} (h : ∀ f, (s.entry f).activeIds.Nodup)
    {u : StateUpdate} {f : String} {id : UInt64} (hid : id ∈ ((s.apply u).entry f).activeIds) :
    id ∈ (s.entry f).activeIds ∨ ∃ at_, u = .runStarted f id at_ := by
  rw [activeIds_apply h] at hid
  split at hid
  · next hf =>
    subst hf
    cases u with
    | pollObservation | pollTimestamp => exact .inl hid
    | runStarted flow id' at_ =>
      simp only [FlowState.activeIdsAfter] at hid
      split at hid
      · exact .inl hid
      · obtain hid | hid := List.mem_append.mp hid
        · exact .inl hid
        · obtain rfl := List.mem_singleton.mp hid
          exact .inr ⟨at_, rfl⟩
    | runFinished flow id' => exact .inl (List.mem_filter.mp hid).1
    | flowRemoved => cases hid
  · exact .inl hid

theorem State.finished_not_active {s : State} (h : ∀ f, (s.entry f).activeIds.Nodup)
    (flow : String) (id : UInt64) (conclusion : String) (at_ : DateTime) :
    id ∉ ((s.apply (.runFinished flow id conclusion at_)).entry flow).activeIds := by
  rw [activeIds_apply h]
  simp [FlowState.activeIdsAfter, StateUpdate.flow]

structure RecordedOnce (e : FlowState) : Prop where
  active_nodup : (e.activeRuns.map RunState.runId).Nodup
  notified_nodup : (e.notifiedRuns.map RunState.runId).Nodup
  disjoint : ∀ a ∈ e.activeRuns, ∀ n ∈ e.notifiedRuns, a.runId ≠ n.runId
  active_open : ∀ r ∈ e.activeRuns, r.conclusion = none ∧ r.completedAt = none
  notified_closed : ∀ r ∈ e.notifiedRuns, r.conclusion.isSome = true ∧ r.completedAt.isSome = true
  capped : e.notifiedRuns.length ≤ NOTIFIED_RUNS_CAP

/-- A start names a run that the flow has not on record as notified. -/
def StartsNew (s : State) : StateUpdate → Prop
  | .runStarted flow id _ => ∀ r ∈ (s.entry flow).notifiedRuns, r.runId ≠ id
  | _ => True

namespace RecordedOnce

variable {e : FlowState}

theorem empty : RecordedOnce {} where
  active_nodup := List.nodup_nil
  notified_nodup := List.nodup_nil
  disjoint := by simp
  active_open := by simp
  notified_closed := by simp
  capped := Nat.zero_le _

theorem of_runs_eq {e' : FlowState} (h : RecordedOnce e) (hactive : e'.activeRuns = e.activeRuns)
    (hnotified : e'.notifiedRuns = e.notifiedRuns) : RecordedOnce e' := by
  obtain ⟨h1, h2, h3, h4, h5, h6⟩ := h
  constructor <;> simpa only [hactive, hnotified]

theorem startRun (h : RecordedOnce e) {id : UInt64} (hnew : ∀ r ∈ e.notifiedRuns, r.runId ≠ id)
    (at_ : DateTime) : RecordedOnce (e.startRun id at_) := by
  unfold FlowState.startRun
  split
  · exact h
  · next hidle =>
    simp only [List.any_eq_true, beq_iff_eq, not_exists, not_and] at hidle
    refine ⟨?_, h.notified_nodup, ?_, ?_, h.notified_closed, h.capped⟩
    · have hfresh : id ∉ e.activeRuns.map RunState.runId := by
        intro ha
        obtain ⟨r, hr, hid⟩ := List.mem_map.mp ha
        exact hidle r hr hid
      simpa using List.Nodup.concat hfresh h.active_nodup
    · intro a ha n hn
      rcases List.mem_append.mp ha with ha | ha
      · exact h.disjoint a ha n hn
      · rw [List.mem_singleton.mp ha]
        exact (hnew n hn).symm
    · intro r hr
      rcases List.mem_append.mp hr with hr | hr
      · exact h.active_open r hr
      · rw [List.mem_singleton.mp hr]
        exact ⟨rfl, rfl⟩

theorem finishRun (h : RecordedOnce e) (id : UInt64) (conclusion : String) (at_ : DateTime) :
    RecordedOnce ((e.finishRun id conclusion at_).getD e) := by
  rw [History.finishRun_eq h.active_nodup]
  cases hfind : e.activeRuns.find? fun r => r.runId == id with
  | none => exact h
  | some run =>
    have hmem := List.mem_of_find?_eq_some hfind
    obtain rfl : run.runId = id := by simpa using List.find?_some hfind
    -- the notified list is a suffix of the old one with the completed run at its end
    have hsub := List.drop_sublist ((e.notifiedRuns ++
      [{ run with conclusion := some conclusion, completedAt := some at_ }]).length -
        NOTIFIED_RUNS_CAP) (e.notifiedRuns ++
      [{ run with conclusion := some conclusion, completedAt := some at_ }])
    have hfresh : run.runId ∉ e.notifiedRuns.map RunState.runId := by
      intro hn
      obtain ⟨n, hn, hid⟩ := List.mem_map.mp hn
      exact h.disjoint run hmem n hn hid.symm
    have hnodup : ((e.notifiedRuns ++
        [{ run with conclusion := some conclusion, completedAt := some at_ }]).map
          RunState.runId).Nodup := by
      simpa using List.Nodup.concat hfresh h.notified_nodup
    refine ⟨?_, hnodup.sublist (hsub.map _), ?_, ?_, ?_, ?_⟩
    · exact h.active_nodup.sublist (List.filter_sublist.map _)
    · intro a ha n hn
      obtain ⟨ha, hne⟩ := List.mem_filter.mp ha
      rcases List.mem_append.mp (hsub.subset hn) with hn | hn
      · exact h.disjoint a ha n hn
      · rw [List.mem_singleton.mp hn]
        simpa using hne
    · intro r hr
      exact h.active_open r (List.mem_filter.mp hr).1
    · intro r hr
      rcases List.mem_append.mp (hsub.subset hr) with hr | hr
      · exact h.notified_closed r hr
      · rw [List.mem_singleton.mp hr]
        exact ⟨rfl, rfl⟩
    · simp only [Option.map_some, Option.getD_some, List.rtake, List.length_drop]
      omega

theorem after {entry : Option FlowState} (h : RecordedOnce (entry.getD {})) {u : StateUpdate}
    (hu : ∀ flow id at_, u = .runStarted flow id at_ →
      ∀ r ∈ (entry.getD {}).notifiedRuns, r.runId ≠ id) :
    RecordedOnce ((FlowState.after entry u).getD {}) := by
  cases u with
  | pollObservation flow sha at_ dispatched cooldown => exact h.of_runs_eq rfl rfl
  | pollTimestamp flow at_ => exact h.of_runs_eq rfl rfl
  | runStarted flow id at_ => exact h.startRun (hu flow id at_ rfl) at_
  | runFinished flow id conclusion at_ =>
    cases entry with
    | none => exact h
    | some e => exact h.finishRun id conclusion at_
  | flowRemoved flow => exact empty

theorem apply {s : State} (h : ∀ f, RecordedOnce (s.entry f)) {u : StateUpdate}
    (hu : StartsNew s u) (f : String) : RecordedOnce ((s.apply u).entry f) := by
  unfold State.entry
  rw [State.lookup_apply]
  split
  · next hf =>
    subst hf
    apply (h u.flow).after
    rintro flow id at_ rfl
    exact hu
  · exact h f

end RecordedOnce

theorem not_recordedOnce_of_restart {s : State} {flow : String} {id : UInt64} {at_ : DateTime}
    (h : RecordedOnce (s.entry flow)) {n : RunState} (hn : n ∈ (s.entry flow).notifiedRuns)
    (hid : n.runId = id) : ¬ RecordedOnce ((s.apply (.runStarted flow id at_)).entry flow) := by
  intro hafter
  have hidle : (s.entry flow).activeRuns.any (fun r => r.runId == id) = false := by
    simp only [List.any_eq_false, beq_iff_eq]
    intro r hr heq
    exact h.disjoint r hr n hn (heq.trans hid.symm)
  have hentry : (s.apply (.runStarted flow id at_)).entry flow =
      { s.entry flow with
        activeRuns := (s.entry flow).activeRuns ++ [⟨id, at_, none, none⟩] } := by
    have hself := State.lookup_apply_self s (.runStarted flow id at_)
    simp only [StateUpdate.flow, FlowState.after, FlowState.startRun] at hself
    rw [State.entry, hself, Option.getD_some]
    exact if_neg (by simpa [State.entry] using hidle)
  rw [hentry] at hafter
  exact hafter.disjoint ⟨id, at_, none, none⟩ (by simp) n hn hid.symm

/-- For every sequence of updates: the state is well recorded after each of them
if and only if no start names a run its flow has on record as notified. -/
theorem runs_recorded_once_iff (us : List StateUpdate) :
    (∀ past, past <+: us → ∀ f, RecordedOnce ((State.default.applyAll past).entry f)) ↔
      ∀ past u, past ++ [u] <+: us → StartsNew (State.default.applyAll past) u := by
  constructor
  · intro h past u hpre
    cases u with
    | runStarted flow id at_ =>
      intro n hn hid
      have hbefore := h past ((List.prefix_append _ _).trans hpre) flow
      have hafter := h (past ++ [.runStarted flow id at_]) hpre flow
      rw [State.applyAll_concat] at hafter
      exact not_recordedOnce_of_restart hbefore hn hid hafter
    | _ => trivial
  · intro h past
    induction past using List.reverseRecOn with
    | nil => exact fun _ _ => .empty
    | append_singleton past u ih =>
      intro hpre f
      rw [State.applyAll_concat]
      exact RecordedOnce.apply (ih ((List.prefix_append _ _).trans hpre)) (h past u hpre) f

/-- A second start of a completed run makes it active beside its notified entry. -/
theorem restarted_run_is_recorded_twice :
    ¬ RecordedOnce ((State.default.applyAll
      [.runStarted "linux" 1 0, .runFinished "linux" 1 "success" 1,
        .runStarted "linux" 1 2]).entry "linux") := by
  intro h
  exact h.disjoint ⟨1, 2, none, none⟩ (by decide) ⟨1, 0, some "success", some 1⟩ (by decide) rfl

end Gcit
