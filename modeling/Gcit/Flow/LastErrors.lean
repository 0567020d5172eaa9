import Gcit.Flow.NoLostTrigger

/-! # The flow's entry in the last-errors map

The poll loop and the dispatcher of one generation write the same entry. Each step
either records an error, ends a successful poll cycle, which removes the entry
while the loop's latch is down, or leaves entry and latch alone. A dispatch
failure therefore stays until the next error exactly if no cycle succeeds behind
one that was recorded while the latch was down.
-/

namespace Gcit.Flow

open Std Gcit Gcit.Git Gcit.Poll Gcit.Library Gcit.Library.OrderedMap

def DispatchError.entry (e : DispatchError) (now : DateTime) : FlowLastError :=
  ⟨now, e.kind, e.message, e.retryAt⟩

namespace Pair

variable (urls : UrlCrates) (params : PollParams)

def lastError (s : Pair) : Option FlowLastError := s.loop.lastErrors[params.flowName]?

def pollRecords (s : Pair) : PollEvent → Option FlowLastError
  | .polled net now => match (s.loop.pollCycle urls params net).1 with
    | .error (.failed message) => some ⟨now, "git_poll_failed", message, none⟩
    | _ => none
  | .stateAccepted now => match s.loop.pc with
    | .sendState _ .unborn => some ⟨now, "git_poll_failed",
        unbornRefMessage params.flowName params.url params.refName, none⟩
    | _ => none
  | _ => none

def records (s : Pair) : Event → Option FlowLastError
  | .poll e => s.pollRecords urls params e
  | .handleDone _ (some e) now => some (e.entry now)
  | _ => none

/-- The event is the end of a successful poll cycle, where the loop calls
`maybe_clear_last_error`. -/
def endsCycle (s : Pair) : Event → Bool
  | .poll (.stateAccepted _) => match s.loop.pc with
    | .sendObservation .. | .sendState _ .keep | .sendState _ (.advance _) => true
    | _ => false
  | _ => false

def Silent : Pair → List Event → Prop :=
  Transition.Along (step urls params) fun s e => s.records urls params e = none

/-- Wherever the run records a dispatch failure, its entry is there as long as
nothing newer is recorded. -/
def DispatchErrorsKept (s₀ : Pair) (events : List Event) : Prop :=
  ∀ pre spawned failure now mid s s' t,
    pre ++ .handleDone spawned (some failure) now :: mid <+: events →
    Transition.run (step urls params) s₀ pre = some s →
    s.step urls params (.handleDone spawned (some failure) now) = some s' →
    Silent urls params s' mid → Transition.run (step urls params) s' mid = some t →
    t.lastError params = some (failure.entry now)

/-- A poll cycle succeeds behind a dispatch failure, with no error in between, only
where the failure was recorded with the latch up. -/
def SucceedsBehindLatched (s₀ : Pair) (events : List Event) : Prop :=
  ∀ pre spawned failure now mid c s s' t,
    pre ++ .handleDone spawned (some failure) now :: (mid ++ [c]) <+: events →
    Transition.run (step urls params) s₀ pre = some s →
    s.step urls params (.handleDone spawned (some failure) now) = some s' →
    Silent urls params s' mid → Transition.run (step urls params) s' mid = some t →
    (t.step urls params c).isSome → t.endsCycle c = true →
    s.loop.lastErrorCleared = true

variable {urls params} {s t : Pair}

@[simp] theorem lookup_maybeClearLastError (l : Loop) :
    (l.maybeClearLastError params).lastErrors[params.flowName]? =
      if l.lastErrorCleared = false then none else l.lastErrors[params.flowName]? := by
  unfold Loop.maybeClearLastError
  cases h : l.lastErrorCleared <;> simp

@[simp] theorem lastErrorCleared_maybeClearLastError (l : Loop) :
    (l.maybeClearLastError params).lastErrorCleared = true := by
  unfold Loop.maybeClearLastError
  split
  · assumption
  · rfl

@[simp] theorem lookup_recordPollFailure (l : Loop) (message : String) (now : DateTime) :
    (l.recordPollFailure params message now).lastErrors[params.flowName]? =
      some ⟨now, "git_poll_failed", message, none⟩ := by
  simp [Loop.recordPollFailure, recordLastError]

theorem stateAccepted_lastError {l : Loop} {now : DateTime}
    (h : s.loop.step urls params (.stateAccepted now) = some l) :
    l.lastErrors[params.flowName]? = (s.pollRecords urls params (.stateAccepted now)).or
        (if s.endsCycle (.poll (.stateAccepted now)) ∧ s.loop.lastErrorCleared = false then none
          else s.lastError params) ∧
      (s.pollRecords urls params (.stateAccepted now) = none →
        l.lastErrorCleared = (s.loop.lastErrorCleared ||
          s.endsCycle (.poll (.stateAccepted now)))) := by
  simp only [Loop.step] at h
  split at h
  · next signal u hpc =>
    cases h
    simp [pollRecords, endsCycle, hpc, Loop.finishTrigger, lastError]
  · next u next hpc =>
    cases h
    cases next with
    | advance sha => simp [pollRecords, endsCycle, hpc, Loop.finishArm, lastError]
    | keep => simp [pollRecords, endsCycle, hpc, Loop.finishArm, lastError]
    | unborn => simp [pollRecords, hpc, Loop.finishArm]
  · cases h

theorem polled_lastError {l : Loop} {net : Network} {now : DateTime}
    (h : s.loop.step urls params (.polled net now) = some l) :
    l.lastErrors[params.flowName]? =
        (s.pollRecords urls params (.polled net now)).or (s.lastError params) ∧
      (s.pollRecords urls params (.polled net now) = none →
        l.lastErrorCleared = s.loop.lastErrorCleared) := by
  obtain ⟨-, rfl⟩ := Transition.guard_eq_some.mp h
  simp only [pollRecords]
  rcases hresult : s.loop.pollCycle urls params net with ⟨(_ | message) | outcome, fingerprint⟩
  · simp [Loop.afterPoll, lastError]
  · simp [Loop.afterPoll]
  · simp [Loop.afterPoll, lastError]

theorem loop_step_lastError {l : Loop} {e : PollEvent} (h : s.loop.step urls params e = some l) :
    l.lastErrors[params.flowName]? = (s.pollRecords urls params e).or
        (if s.endsCycle (.poll e) ∧ s.loop.lastErrorCleared = false then none
          else s.lastError params) ∧
      (s.pollRecords urls params e = none →
        l.lastErrorCleared = (s.loop.lastErrorCleared || s.endsCycle (.poll e))) := by
  cases e with
  | polled net now => simpa [endsCycle] using polled_lastError h
  | stateAccepted now => exact stateAccepted_lastError h
  | wake | acquired =>
    obtain ⟨-, rfl⟩ := Transition.guard_eq_some.mp h
    simp [pollRecords, endsCycle, lastError]
  | cancelled =>
    simp only [Loop.step] at h
    split at h
    · cases h; simp [pollRecords, endsCycle, lastError]
    · obtain ⟨-, rfl⟩ := Transition.guard_eq_some.mp h
      simp [pollRecords, endsCycle, lastError]
    · cases h; simp [pollRecords, endsCycle, lastError]
    · cases h
  | triggerAccepted | triggerClosed =>
    simp only [Loop.step] at h
    split at h
    · cases h; simp [pollRecords, endsCycle, lastError]
    · cases h
  | stateClosed =>
    simp only [Loop.step] at h
    split at h
    · cases h; simp [pollRecords, endsCycle, lastError]
    · cases h; simp [pollRecords, endsCycle, lastError]
    · cases h

theorem stepPoll_loop {e : PollEvent} (h : s.stepPoll urls params e = some t) :
    s.loop.step urls params e = some t.loop := by
  unfold stepPoll at h
  obtain ⟨-, h⟩ := Option.ite_none_right_eq_some.mp h
  obtain ⟨l, hl, h⟩ := Option.bind_eq_some_iff.mp h
  rw [hl]
  cases e with
  | triggerAccepted =>
    obtain ⟨m, -, rfl⟩ := Option.map_eq_some_iff.mp h
    rfl
  | _ => cases h; rfl

theorem handleDone_lastError {spawned : Bool} {failure : DispatchError} {now : DateTime}
    (h : s.step urls params (.handleDone spawned (some failure) now) = some t) :
    t.lastError params = some (failure.entry now) ∧
      t.loop.lastErrorCleared = s.loop.lastErrorCleared := by
  simp only [step] at h
  split at h
  · cases h
    simp [finishHandling, lastError, recordLastError, DispatchError.entry]
  · cases h
    simp [finishHandling, lastError, recordLastError, DispatchError.entry]
  · cases h

theorem step_lastError {e : Event} (h : s.step urls params e = some t) :
    t.lastError params = (s.records urls params e).or
        (if s.endsCycle e ∧ s.loop.lastErrorCleared = false then none else s.lastError params) ∧
      (s.records urls params e = none →
        t.loop.lastErrorCleared = (s.loop.lastErrorCleared || s.endsCycle e)) := by
  have hframe : t.loop = s.loop → s.records urls params e = none → s.endsCycle e = false →
      t.lastError params = (s.records urls params e).or
          (if s.endsCycle e ∧ s.loop.lastErrorCleared = false then none else s.lastError params) ∧
        (s.records urls params e = none →
          t.loop.lastErrorCleared = (s.loop.lastErrorCleared || s.endsCycle e)) := by
    intro hloop hrecords hends
    simp [lastError, hloop, hrecords, hends]
  cases e with
  | poll e => exact loop_step_lastError (stepPoll_loop h)
  | cancel | dropHandle | stateWriterGone =>
    cases h
    exact hframe rfl rfl rfl
  | manualTrigger signal =>
    obtain ⟨-, h⟩ := Option.ite_none_right_eq_some.mp h
    obtain ⟨channel, -, rfl⟩ := Option.map_eq_some_iff.mp h
    exact hframe rfl rfl rfl
  | seeCancel | closed | joinMonitor | drainEmpty | exit =>
    obtain ⟨-, rfl⟩ := Transition.guard_eq_some.mp h
    exact hframe rfl rfl rfl
  | receive | tryReceive =>
    obtain ⟨-, h⟩ := Option.ite_none_right_eq_some.mp h
    obtain ⟨⟨message, channel⟩, -, rfl⟩ := Option.map_eq_some_iff.mp h
    exact hframe rfl rfl rfl
  | handleDone spawned failure now =>
    cases failure with
    | none =>
      simp only [step] at h
      split at h
      · cases h; exact hframe rfl rfl rfl
      · cases h; exact hframe rfl rfl rfl
      · cases h
    | some failure => simp [records, (handleDone_lastError h).1]

theorem records_of_endsCycle {e : Event} (h : s.endsCycle e = true) :
    s.records urls params e = none := by
  unfold endsCycle at h
  split at h
  · split at h <;> simp_all [records, pollRecords]
  · cases h

/-- Behind a failure recorded with the latch down, either no cycle has succeeded
yet or a cycle has removed the entry. -/
theorem removed_of_latch_down {s t : Pair} {events : List Event}
    (hlatch : s.loop.lastErrorCleared = false) (hsilent : Silent urls params s events)
    (hrun : Transition.run (step urls params) s events = some t) :
    t.loop.lastErrorCleared = false ∨ ∃ mid rest u, events = mid ++ rest ∧
      Transition.run (step urls params) s mid = some u ∧ u.lastError params = none := by
  induction events generalizing s with
  | nil =>
    obtain rfl : s = t := by simpa using hrun
    exact .inl hlatch
  | cons e events ih =>
    obtain ⟨m, hm, hrest⟩ := Transition.run_cons_eq_some.mp hrun
    obtain ⟨hrecords, hsilent⟩ := (Transition.along_cons hm).mp hsilent
    obtain ⟨hentry, hlatch'⟩ := step_lastError hm
    rw [hrecords, Option.none_or, hlatch] at hentry
    rw [hlatch, Bool.false_or] at hlatch'
    cases hends : s.endsCycle e with
    | true =>
      refine .inr ⟨[e], events, m, rfl, Transition.run_cons_eq_some.mpr ⟨m, hm, rfl⟩, ?_⟩
      simpa [hends] using hentry
    | false =>
      rcases ih (by rw [hlatch' hrecords, hends]) hsilent hrest with
        hdown | ⟨mid, rest, u, rfl, hmid, hnone⟩
      · exact .inl hdown
      · exact .inr ⟨e :: mid, rest, u, rfl, Transition.run_cons_eq_some.mpr ⟨m, hm, hmid⟩, hnone⟩

theorem kept_of_latched {s t : Pair} {events : List Event}
    (hsucceeds : ∀ mid c rest m, events = mid ++ c :: rest →
      Transition.run (step urls params) s mid = some m → (m.step urls params c).isSome →
      m.endsCycle c = true → s.loop.lastErrorCleared = true)
    (hsilent : Silent urls params s events)
    (hrun : Transition.run (step urls params) s events = some t) :
    t.lastError params = s.lastError params := by
  induction events generalizing s with
  | nil =>
    obtain rfl : s = t := by simpa using hrun
    rfl
  | cons e events ih =>
    obtain ⟨m, hm, hrest⟩ := Transition.run_cons_eq_some.mp hrun
    obtain ⟨hrecords, hsilent⟩ := (Transition.along_cons hm).mp hsilent
    obtain ⟨hentry, hlatch⟩ := step_lastError hm
    have hkept : m.lastError params = s.lastError params := by
      rw [hentry, hrecords, Option.none_or, if_neg]
      rintro ⟨hends, hdown⟩
      have hup := hsucceeds [] e events s rfl rfl (by simp [hm]) hends
      rw [hdown] at hup
      cases hup
    rw [← hkept]
    refine ih (fun mid c rest m' hevents hmid hc hends => ?_) hsilent hrest
    have hup := hsucceeds (e :: mid) c rest m' (by rw [hevents]; rfl)
      (Transition.run_cons_eq_some.mpr ⟨m, hm, hmid⟩) hc hends
    rw [hlatch hrecords, hup, Bool.true_or]

/-- The entry of a dispatch failure stays until the next error of the flow exactly
if no cycle succeeds behind a failure that was recorded with the latch down. -/
theorem dispatch_errors_kept_iff (urls : UrlCrates) (params : PollParams) (sha : Option ObjectId)
    (dispatched : Option DateTime) (errors : LastErrors) (events : List Event) :
    DispatchErrorsKept urls params (.start sha dispatched errors) events ↔
      SucceedsBehindLatched urls params (.start sha dispatched errors) events := by
  constructor
  · intro hkept pre spawned failure now mid c s s' t hprefix hpre hfail hsilent hmid hc hends
    by_contra hdown
    obtain ⟨u, hu⟩ := Option.isSome_iff_exists.mp hc
    have hrun : Transition.run (step urls params) s' (mid ++ [c]) = some u :=
      Transition.run_append_eq_some.mpr ⟨t, hmid, Transition.run_cons_eq_some.mpr ⟨u, hu, rfl⟩⟩
    have hquiet : Silent urls params s' (mid ++ [c]) :=
      (Transition.along_append hmid).mpr
        ⟨hsilent, (Transition.along_cons hu).mpr ⟨records_of_endsCycle hends, trivial⟩⟩
    have hlatch : s'.loop.lastErrorCleared = false := by
      rw [(handleDone_lastError hfail).2]
      simpa using hdown
    rcases removed_of_latch_down hlatch hquiet hrun with hlate | ⟨mid', rest, v, hsplit, hv, hnone⟩
    · rw [(step_lastError hu).2 (records_of_endsCycle hends), hends, Bool.or_true] at hlate
      cases hlate
    · rw [hsplit] at hquiet
      have hprefix' : pre ++ .handleDone spawned (some failure) now :: mid' <+: events := by
        refine List.IsPrefix.trans ⟨rest, ?_⟩ hprefix
        simp [hsplit]
      rw [hkept pre spawned failure now mid' s s' v hprefix' hpre hfail
        ((Transition.along_append hv).mp hquiet).1 hv] at hnone
      cases hnone
  · intro hsucceeds pre spawned failure now mid s s' t hprefix hpre hfail hsilent hmid
    rw [← (handleDone_lastError hfail).1]
    refine kept_of_latched (fun m c rest u hsplit hm hc hends => ?_) hsilent hmid
    rw [(handleDone_lastError hfail).2]
    subst hsplit
    refine hsucceeds pre spawned failure now m c s s' u ?_ hpre hfail
      ((Transition.along_append hm).mp hsilent).1 hm hc hends
    refine List.IsPrefix.trans ⟨rest, ?_⟩ hprefix
    simp

/-- The first poll behind a spawn finds a commit; the dispatch fails before the state
writer takes the observation, and the end of the same cycle removes the failure. -/
theorem fast_failure_is_erased :
    ¬ DispatchErrorsKept kernelOrgCrates kernelOrgParams (.start (some (.repeated 10)) none ∅)
      (findsSha "aa" (.repeated 11) 0 ++
        [.poll .triggerAccepted, .receive,
          .handleDone false (some ⟨"dispatch", "dispatch: GitHub auth failed", none⟩) 1,
          .poll (.stateAccepted 2)]) := by
  intro h
  have hgone := h (findsSha "aa" (.repeated 11) 0 ++ [.poll .triggerAccepted, .receive]) false
    ⟨"dispatch", "dispatch: GitHub auth failed", none⟩ 1 [.poll (.stateAccepted 2)] _ _ _
    List.prefix_rfl rfl rfl ⟨rfl, trivial⟩ rfl
  exact absurd hgone (by decide)

end Pair

end Gcit.Flow
