import Gcit.Flow.TriggerPath
import Gcit.Poll.Fingerprint
import Mathlib.Data.List.Nodup

/-! # Which triggers reach `handle_trigger`

The poll loop sends the trigger first and then its observation, and the
dispatcher empties the queue when it sees the cancellation. Between the moment
the drain finds the queue empty and the moment the receiver is dropped the queue
still takes signals, and those are lost. In every run where the poll loop's
sends do not fall into that window, every trigger whose observation was sent was
handed over exactly once.
-/

namespace Gcit.Flow

open Std Gcit Gcit.Git Gcit.Poll Gcit.Library Gcit.Library.Channel

def pollNumbers (messages : List Message) : List Nat := messages.filterMap Message.origin

theorem pollNumbers_append (ms ns : List Message) :
    pollNumbers (ms ++ ns) = pollNumbers ms ++ pollNumbers ns := List.filterMap_append

def Event.sendsTrigger : Event → Bool
  | .poll .triggerAccepted => true
  | _ => false

namespace Pair

variable {urls : UrlCrates} {params : PollParams} {s t : Pair}

/-- The poll loop sends no trigger once the dispatcher has finished its drain. -/
def SendsBeforeDrainEnds (s : Pair) (e : Event) : Prop :=
  e.sendsTrigger = true → s.dispatcher ≠ .drainingMonitors

instance (s : Pair) (e : Event) : Decidable (SendsBeforeDrainEnds s e) :=
  inferInstanceAs (Decidable (_ → _))

/-- What was handed over, followed by what is queued, is all that was sent, in order. -/
structure Inv (s : Pair) : Prop where
  numbered : pollNumbers (s.handled ++ s.channel.queue) = List.range s.nextTrigger
  drained : s.dispatcher = .drainingMonitors → pollNumbers s.channel.queue = []
  gone : s.dispatcher = .exited → s.channel.queue = [] ∧ s.channel.open_ = false
  observed : ∀ o ∈ s.observed, o.1 < s.nextTrigger
  sending : ∀ signal observation, s.loop.pc = .sendObservation signal observation →
    0 < s.nextTrigger

theorem start_inv (sha : Option ObjectId) (dispatched : Option DateTime) (errors : LastErrors) :
    (Pair.start sha dispatched errors).Inv where
  numbered := rfl
  drained h := by cases h
  gone h := by cases h
  observed o ho := by cases ho
  sending _ _ h := by cases h

theorem eq_triggerAccepted {l l' : Loop} {e : PollEvent} (h : l.step urls params e = some l')
    {signal : TriggerSignal} {observation : StateUpdate}
    (hpc : l'.pc = .sendObservation signal observation) : e = .triggerAccepted := by
  cases e with
  | triggerAccepted => rfl
  | wake | acquired =>
    obtain ⟨-, rfl⟩ := Transition.guard_eq_some.mp h
    cases hpc
  | polled net now =>
    simp only [Loop.step] at h
    obtain ⟨-, rfl⟩ := Transition.guard_eq_some.mp h
    generalize l.pollCycle urls params net = r at hpc
    obtain ⟨result, fingerprint⟩ := r
    cases result with
    | error e => cases e <;> cases hpc
    | ok o =>
      cases o with
      | refreshed sha =>
        simp only [Loop.afterPoll, Loop.handleOutcome, Loop.handleRefreshed] at hpc
        repeat' split at hpc
        all_goals cases hpc
      | unbornRef => cases hpc
      | unchanged => cases hpc
  | cancelled =>
    simp only [Loop.step] at h
    repeat' split at h
    all_goals cases h; try cases hpc
  | triggerClosed | stateAccepted | stateClosed =>
    simp only [Loop.step] at h
    split at h <;> cases h <;> cases hpc

theorem send?_numbers {c d : Mpsc Message TRIGGER_QUEUE} {m : Message} (h : c.send? m = some d)
    (handled : List Message) :
    pollNumbers (handled ++ d.queue) = pollNumbers (handled ++ c.queue) ++ m.origin.toList := by
  obtain ⟨-, -, hq⟩ := Mpsc.send?_eq_some h
  rw [hq, ← List.append_assoc, pollNumbers_append]
  congr 1

theorem handOver_inv {pc : DispatcherPc} (h : s.Inv) (hpc : pc ≠ .drainingMonitors ∧ pc ≠ .exited)
    (hstep : s.handOver pc = some t) : t.Inv := by
  unfold handOver at hstep
  obtain ⟨⟨message, channel⟩, hr, rfl⟩ := Option.map_eq_some_iff.mp hstep
  obtain ⟨hq, -⟩ := Mpsc.recv?_eq_some hr
  refine ⟨?_, fun h => absurd h hpc.1, fun h => absurd h hpc.2, h.observed, h.sending⟩
  rw [← h.numbered, hq, List.append_assoc]
  rfl

theorem poll_frame_inv {e : PollEvent} {loop : Loop} (h : s.Inv)
    (hloop : s.loop.step urls params e = some loop) (he : e ≠ .triggerAccepted) :
    Inv { s with loop := loop } :=
  ⟨h.numbered, h.drained, h.gone, h.observed,
    fun _ _ hpc => absurd (eq_triggerAccepted hloop hpc) he⟩

theorem acceptTrigger_inv {loop : Loop} (h : s.Inv) (hdrain : s.dispatcher ≠ .drainingMonitors)
    (hstep : s.acceptTrigger = some t) : Inv { t with loop := loop } := by
  unfold acceptTrigger at hstep
  split at hstep
  · obtain ⟨channel, hsend, rfl⟩ := Option.map_eq_some_iff.mp hstep
    obtain ⟨hopen, -, -⟩ := Mpsc.send?_eq_some hsend
    refine ⟨?_, fun hd => absurd hd hdrain, fun hx => ?_, fun o ho => ?_, fun _ _ _ => ?_⟩
    · rw [send?_numbers hsend, h.numbered, List.range_succ]
      rfl
    · rw [(h.gone hx).2] at hopen
      cases hopen
    · exact Nat.lt_succ_of_lt (h.observed o ho)
    · exact Nat.succ_pos _
  · cases hstep

theorem noteObservation_inv {loop : Loop} (h : s.Inv) {now : DateTime}
    (hloop : s.loop.step urls params (.stateAccepted now) = some loop) :
    Inv { s.noteObservation with loop := loop } := by
  unfold noteObservation
  split
  · next signal observation hpc =>
    refine ⟨h.numbered, h.drained, h.gone, fun o ho => ?_,
      fun _ _ hpc => absurd (eq_triggerAccepted hloop hpc) (by simp)⟩
    obtain ho | ho := List.mem_append.mp ho
    · exact h.observed o ho
    · obtain rfl := List.mem_singleton.mp ho
      have hpos := h.sending signal observation hpc
      simp only
      omega
  · exact poll_frame_inv h hloop (by simp)

theorem stepPoll_inv {e : PollEvent} (h : s.Inv) (hc : SendsBeforeDrainEnds s (.poll e))
    (hstep : s.stepPoll urls params e = some t) : t.Inv := by
  unfold stepPoll at hstep
  obtain ⟨-, hstep⟩ := Option.ite_none_right_eq_some.mp hstep
  obtain ⟨loop, hloop, ht⟩ := Option.bind_eq_some_iff.mp hstep
  split at ht
  · obtain ⟨u, hu, rfl⟩ := Option.map_eq_some_iff.mp ht
    exact acceptTrigger_inv h (hc rfl) hu
  · cases ht
    exact noteObservation_inv h hloop
  · next he _ =>
    cases ht
    exact poll_frame_inv h hloop he

theorem step_inv {e : Event} (h : s.Inv) (hc : SendsBeforeDrainEnds s e)
    (hstep : s.step urls params e = some t) : t.Inv := by
  cases e with
  | poll e => exact stepPoll_inv h hc hstep
  | cancel | dropHandle | stateWriterGone =>
    cases hstep
    exact ⟨h.numbered, h.drained, h.gone, h.observed, h.sending⟩
  | manualTrigger signal =>
    obtain ⟨-, hstep⟩ := Option.ite_none_right_eq_some.mp hstep
    obtain ⟨channel, hsend, rfl⟩ := Option.map_eq_some_iff.mp hstep
    obtain ⟨hopen, -, -⟩ := Mpsc.send?_eq_some hsend
    refine ⟨?_, fun hd => ?_, fun hx => ?_, h.observed, h.sending⟩
    · rw [send?_numbers hsend, h.numbered]
      exact List.append_nil _
    · have hnumbers := send?_numbers hsend []
      simpa [h.drained hd] using hnumbers
    · rw [(h.gone hx).2] at hopen
      cases hopen
  | seeCancel =>
    obtain ⟨-, rfl⟩ := Transition.guard_eq_some.mp hstep
    exact ⟨h.numbered, by simp, by simp, h.observed, h.sending⟩
  | receive =>
    obtain ⟨-, hstep⟩ := Option.ite_none_right_eq_some.mp hstep
    exact handOver_inv h (by simp) hstep
  | closed =>
    obtain ⟨⟨-, hq, -⟩, rfl⟩ := Transition.guard_eq_some.mp hstep
    exact ⟨h.numbered, fun _ => by simp [hq, pollNumbers], by simp, h.observed, h.sending⟩
  | joinMonitor =>
    obtain ⟨-, rfl⟩ := Transition.guard_eq_some.mp hstep
    exact ⟨h.numbered, h.drained, h.gone, h.observed, h.sending⟩
  | handleDone spawned failure now =>
    simp only [step] at hstep
    split at hstep
    · cases hstep
      exact ⟨h.numbered, by simp [finishHandling], by simp [finishHandling], h.observed, h.sending⟩
    · cases hstep
      exact ⟨h.numbered, by simp [finishHandling], by simp [finishHandling], h.observed, h.sending⟩
    · cases hstep
  | tryReceive =>
    obtain ⟨-, hstep⟩ := Option.ite_none_right_eq_some.mp hstep
    exact handOver_inv h (by simp) hstep
  | drainEmpty =>
    obtain ⟨⟨-, hq⟩, rfl⟩ := Transition.guard_eq_some.mp hstep
    exact ⟨h.numbered, fun _ => by simp [hq, pollNumbers], by simp, h.observed, h.sending⟩
  | exit =>
    obtain ⟨hd, rfl⟩ := Transition.guard_eq_some.mp hstep
    refine ⟨?_, by simp, by simp, h.observed, h.sending⟩
    rw [← h.numbered, pollNumbers_append, pollNumbers_append, h.drained hd]
    rfl

/-- In every run in which the poll loop's sends are accepted before the
dispatcher ends its drain, once the dispatcher has exited every trigger whose
observation with a dispatch time was sent has been handed to `handle_trigger`
exactly once. -/
theorem observed_trigger_handled_once (urls : UrlCrates) (params : PollParams)
    (sha : Option ObjectId) (dispatched : Option DateTime) (errors : LastErrors)
    (events : List Event) (s : Pair)
    (hrun : Transition.run (step urls params) (.start sha dispatched errors) events = some s)
    (hsends : Transition.Along (step urls params) SendsBeforeDrainEnds
      (.start sha dispatched errors) events)
    (hexited : s.dispatcher = .exited) :
    ∀ n flow sha at_ dispatchedAt cooldown,
      (n, StateUpdate.pollObservation flow sha at_ (some dispatchedAt) cooldown) ∈ s.observed →
      (pollNumbers s.handled).count n = 1 := by
  intro n flow sha at_ dispatchedAt cooldown hmem
  have hinv := Transition.invariant_along (fun _ _ _ h hc hs => step_inv h hc hs)
    (start_inv _ _ _) hsends hrun
  have hnumbered := hinv.numbered
  rw [(hinv.gone hexited).1, List.append_nil] at hnumbered
  rw [hnumbered]
  exact List.count_eq_one_of_mem List.nodup_range (List.mem_range.mpr (hinv.observed _ hmem))

def findsSha (fp : String) (sha : ObjectId) (now : DateTime) : List Event :=
  [.poll .wake, .poll .acquired, .poll (.polled (manifestCycle fp (.ok (.refreshed sha))) now)]

/-- A first trigger is handed over and its run is monitored; a second one is
found two hours later and sent before the cancellation. -/
def orderlyRun : List Event :=
  findsSha "aa" (.repeated 11) 0 ++
  [.poll .triggerAccepted, .poll (.stateAccepted 0), .receive, .handleDone true none 0] ++
  findsSha "ab" (.repeated 12) (seconds 7200) ++
  [.poll .triggerAccepted, .cancel, .seeCancel, .tryReceive, .poll (.stateAccepted (seconds 7200)),
    .poll .cancelled, .handleDone false none (seconds 7201), .drainEmpty, .joinMonitor, .exit]

theorem orderly_triggers_handled_once :
    ∃ s, Transition.run (step kernelOrgCrates kernelOrgParams)
        (.start (some (.repeated 10)) none ∅) orderlyRun = some s ∧
      s.observed.map Prod.fst = [0, 1] ∧
      (pollNumbers s.handled).count 0 = 1 ∧ (pollNumbers s.handled).count 1 = 1 := by
  have h := observed_trigger_handled_once kernelOrgCrates kernelOrgParams (some (.repeated 10))
    none ∅ orderlyRun _ rfl (by decide) rfl
  refine ⟨_, rfl, by decide, ?_, ?_⟩
  · exact h 0 "linux" (.repeated 11) 0 0 (some (seconds 3600)) (by decide)
  · exact h 1 "linux" (.repeated 12) (seconds 7200) (seconds 7200) (some (seconds 10800)) (by decide)

/-- The same flow, with the second trigger accepted while the dispatcher, its
drain over, waits for the monitor of the first run: both tasks exit, the
observation was sent, and the trigger was never handed over. -/
theorem trigger_lost_after_drain :
    ∃ s observation, Transition.run (step kernelOrgCrates kernelOrgParams)
        (.start (some (.repeated 10)) none ∅)
        (findsSha "aa" (.repeated 11) 0 ++
          [.poll .triggerAccepted, .poll (.stateAccepted 0), .receive, .handleDone true none 0] ++
          findsSha "ab" (.repeated 12) (seconds 7200) ++
          [.cancel, .seeCancel, .drainEmpty, .poll .triggerAccepted,
            .poll (.stateAccepted (seconds 7200)), .poll .cancelled, .joinMonitor, .exit]) = some s ∧
      s.loop.pc = .exited ∧ s.dispatcher = .exited ∧
      observation = .pollObservation "linux" (.repeated 12) (seconds 7200) (some (seconds 7200))
        (some (seconds 10800)) ∧
      (1, observation) ∈ s.observed ∧ (pollNumbers s.handled).count 1 = 0 := by
  exact ⟨_, _, rfl, by decide, by decide, rfl, by decide, by decide⟩

end Pair

end Gcit.Flow
