import Mathlib.Data.List.Chain
import Gcit.Poll.Fingerprint
import Gcit.Poll.Driver

/-! # The cooldown between accepted triggers

The loop checks the cooldown against the stamp it remembers, stamps the trigger
with the same clock reading, and remembers that stamp once the observation is
sent. Between the two sends the remembered stamp is behind, and the loop can only
confirm it or exit, so no check is ever made against a stale one.
-/

namespace Gcit.Poll

open Gcit Gcit.Git Gcit.Library

/-- The clock as a finished poll reads it. -/
def DriveEvent.reading : DriveEvent → Option DateTime
  | .cycled _ now => some now
  | _ => none

def readings (events : List DriveEvent) : List DateTime := events.filterMap DriveEvent.reading

def stamps (initial : Option DateTime) (s : Traced) : List DateTime :=
  initial.toList ++ s.accepted.map TriggerSignal.observedAt

def Apart (cooldown : Duration) (a b : DateTime) : Prop := a + cooldown ≤ b

structure Spaced (params : PollParams) (initial : Option DateTime) (clock : List DateTime)
    (s : Traced) : Prop where
  chain : (stamps initial s).IsChain (Apart params.effectivePoll.cooldown)
  read : ∀ t ∈ stamps initial s, t ∈ initial.toList ++ clock
  current : s.loop.pc ≠ .exited → (∀ signal u, s.loop.pc ≠ .sendObservation signal u) →
    s.loop.lastDispatchedAt = (stamps initial s).getLast?
  confirming : ∀ signal u, s.loop.pc = .sendObservation signal u →
    (stamps initial s).getLast? = some signal.observedAt
  pending : ∀ signal u, s.loop.pc = .sendTrigger signal u → signal.observedAt ∈ clock ∧
    ∀ t, s.loop.lastDispatchedAt = some t → Apart params.effectivePoll.cooldown t signal.observedAt

namespace Spaced

variable {params : PollParams} {initial : Option DateTime} {clock clock' : List DateTime}
  {s s' : Traced} {e : DriveEvent}

theorem start (lastSha : Option ObjectId) (lastErrors : LastErrors) :
    Spaced params initial [] (.start lastSha initial lastErrors) where
  chain := by cases initial <;> simp [stamps, Traced.start, Traced.accepted]
  read := by simp [stamps, Traced.start, Traced.accepted]
  current := by
    intro _ _
    cases initial <;> rfl
  confirming := by simp [Traced.start, Loop.start]
  pending := by simp [Traced.start, Loop.start]

theorem apart_of_isCooledDown {t now : DateTime} {cooldown : Duration} (hle : t ≤ now)
    (h : isCooledDown (some t) now cooldown = true) : Apart cooldown t now := by
  simp only [isCooledDown, if_neg (Int.not_lt.mpr hle), decide_eq_true_eq] at h
  have hsum : (cooldown : Int) + t ≤ now := Int.add_le_of_le_sub_right h
  rw [Int.add_comm] at hsum
  exact hsum

/-- A step that accepts no trigger and leaves the remembered stamp alone. -/
theorem silent (h : Spaced params initial clock s) (hstamps : stamps initial s' = stamps initial s)
    (hclock : clock ⊆ clock') (hat : s'.loop.lastDispatchedAt = s.loop.lastDispatchedAt)
    (hlive : s.loop.pc ≠ .exited)
    (hlost : ∀ signal u, s.loop.pc = .sendObservation signal u → s'.loop.pc = .exited)
    (hpc : ∀ signal u, s'.loop.pc ≠ .sendObservation signal u)
    (hpending : ∀ signal u, s'.loop.pc = .sendTrigger signal u → signal.observedAt ∈ clock' ∧
      ∀ t, s'.loop.lastDispatchedAt = some t →
        Apart params.effectivePoll.cooldown t signal.observedAt) :
    Spaced params initial clock' s' := by
  refine ⟨hstamps ▸ h.chain, ?_, ?_, fun signal u hbad => absurd hbad (hpc signal u), hpending⟩
  · intro t ht
    rw [hstamps] at ht
    exact List.mem_append.mpr ((List.mem_append.mp (h.read t ht)).imp_right fun hc => hclock hc)
  · intro hexit _
    rw [hstamps, hat]
    exact h.current hlive fun signal u hsend => hexit (hlost signal u hsend)

theorem stamps_of_accepted (hacc : s'.accepted = s.accepted) :
    stamps initial s' = stamps initial s := by
  simp only [stamps, hacc]

theorem apart_of_fire (h : Spaced params initial clock s) {now : DateTime}
    (hclock : ∀ t ∈ initial.toList ++ clock, t ≤ now) (hpoll : s.loop.pc = .polling)
    (hcool : isCooledDown s.loop.lastDispatchedAt now params.effectivePoll.cooldown = true)
    {t : DateTime} (ht : s.loop.lastDispatchedAt = some t) :
    Apart params.effectivePoll.cooldown t now := by
  have hlast := h.current (by simp [hpoll]) (by simp [hpoll])
  have hmem : t ∈ stamps initial s := List.mem_of_getLast? (hlast.symm.trans ht)
  rw [ht] at hcool
  exact apart_of_isCooledDown (hclock t (h.read t hmem)) hcool

theorem accept (h : Spaced params initial clock s) {signal : TriggerSignal} {u : StateUpdate}
    (hlog : s'.log = s.log ++ [.trigger signal]) (hpc : s.loop.pc = .sendTrigger signal u)
    (hpc' : s'.loop.pc = .sendObservation signal u) : Spaced params initial clock s' := by
  obtain ⟨hread, hapart⟩ := h.pending signal u hpc
  have hstamps : stamps initial s' = stamps initial s ++ [signal.observedAt] := by
    simp [stamps, Traced.accepted, hlog]
  refine ⟨?_, ?_, ?_, ?_, by simp [hpc']⟩
  · rw [hstamps, List.isChain_append]
    refine ⟨h.chain, .singleton _, ?_⟩
    intro a ha b hb
    obtain rfl : signal.observedAt = b := by simpa using hb
    exact hapart a ((h.current (by simp [hpc]) (by simp [hpc])).trans ha)
  · intro t ht
    rw [hstamps, List.mem_append, List.mem_singleton] at ht
    rcases ht with ht | rfl
    · exact h.read t ht
    · exact List.mem_append_right _ hread
  · intro _ hnot
    exact absurd hpc' (hnot signal u)
  · intro signal' u' hsend
    obtain ⟨rfl, rfl⟩ : signal = signal' ∧ u = u' := by simpa [hpc'] using hsend
    rw [hstamps, List.getLast?_concat]

theorem drive (h : Spaced params initial clock s)
    (hclock : ∀ now, e.reading = some now → ∀ t ∈ initial.toList ++ clock, t ≤ now)
    (hstep : s.drive params e = some s') :
    Spaced params initial (clock ++ e.reading.toList) s' := by
  obtain ⟨out, hlog, hmoves⟩ := Traced.drive_eq_some hstep
  have hsub : clock ⊆ clock ++ e.reading.toList := List.subset_append_left _ _
  have hsame : (∀ signal, .trigger signal ∉ out) → stamps initial s' = stamps initial s := by
    intro hout
    apply stamps_of_accepted
    simp only [Traced.accepted, hlog, List.filterMap_append]
    rw [List.append_right_eq_self, List.filterMap_eq_nil_iff]
    intro o ho
    cases o with
    | trigger signal => exact absurd ho (hout signal)
    | update u => rfl
  have hnone : e.reading = none → clock ++ e.reading.toList = clock := by
    intro hreading
    rw [hreading, Option.toList_none, List.append_nil]
  cases hmoves with
  | quiet hpc hlost hlive hsha hat =>
    refine h.silent (hsame (by simp)) hsub hat hlive hlost ?_ ?_
    · intro signal u hbad
      rw [hbad] at hpc
      exact hpc
    · intro signal u hbad
      rw [hbad] at hpc
      exact hpc.elim
  | @fire result now sha old until_ hpoll hold hne hcool hpc hsha hat =>
    refine h.silent (hsame (by simp)) hsub hat (by simp [hpoll]) (by simp [hpoll])
      (by simp [hpc]) ?_
    intro signal u hsend
    obtain ⟨rfl, -⟩ : ⟨sha, now⟩ = signal ∧ _ := by simpa [hpc] using hsend
    refine ⟨by simp [DriveEvent.reading], ?_⟩
    intro t ht
    exact h.apart_of_fire (hclock now rfl) hpoll hcool (hat.symm.trans ht)
  | observe hpoll hs hpc hsha hat =>
    exact h.silent (hsame (by simp)) hsub hat (by simp [hpoll]) (by simp [hpoll]) (by simp [hpc])
      (by simp [hpc])
  | refresh hpoll hnext hpc hsha hat =>
    exact h.silent (hsame (by simp)) hsub hat (by simp [hpoll]) (by simp [hpoll]) (by simp [hpc])
      (by simp [hpc])
  | accept hpc hpc' hsha hat =>
    rw [hnone rfl]
    exact h.accept hlog hpc hpc'
  | @confirm signal u now hpc hpc' hsha hat =>
    have hstamps := hsame (by simp)
    refine ⟨hstamps ▸ h.chain, ?_, ?_, by simp [hpc'], by simp [hpc']⟩
    · rw [hstamps, hnone rfl]
      exact h.read
    · -- the remembered stamp catches up with the accepted one
      intro _ _
      rw [hstamps, hat, h.confirming signal u hpc]
  | advance hpc hpc' hsha hat =>
    exact h.silent (hsame (by simp)) hsub hat (by simp [hpc]) (by simp [hpc]) (by simp [hpc'])
      (by simp [hpc'])
  | keep hpc hnext hpc' hsha hat =>
    exact h.silent (hsame (by simp)) hsub hat (by simp [hpc]) (by simp [hpc]) (by simp [hpc'])
      (by simp [hpc'])

theorem of_run {lastSha : Option ObjectId} {lastErrors : LastErrors} {events : List DriveEvent}
    (hrun : Transition.run (Traced.drive params) (.start lastSha initial lastErrors) events = some s)
    (hclock : (initial.toList ++ readings events).Pairwise (· ≤ ·)) :
    Spaced params initial (readings events) s := by
  -- on the last event, whose reading is not earlier than any before it
  induction events using List.reverseRecOn generalizing s with
  | nil =>
    obtain rfl := Option.some.inj hrun
    exact start lastSha lastErrors
  | append_singleton events e ih =>
    obtain ⟨m, hm, hlast⟩ := Transition.run_append_eq_some.mp hrun
    obtain ⟨s₁, hstep, hs⟩ := Transition.run_cons_eq_some.mp hlast
    obtain rfl := Option.some.inj hs
    have hreadings : readings (events ++ [e]) = readings events ++ e.reading.toList := by
      cases hr : e.reading <;> simp [readings, hr]
    rw [hreadings, ← List.append_assoc, List.pairwise_append] at hclock
    rw [hreadings]
    refine (ih hm hclock.1).drive ?_ hstep
    intro now hnow t ht
    exact hclock.2.2 t ht now (by simp [hnow])

end Spaced

/-- However the executor answers and wherever the loop is cut off, with a clock
that never goes back behind itself or behind the persisted stamp, consecutive
accepted triggers, the persisted one first, are at least the cooldown apart. -/
theorem triggers_spaced_by_cooldown (params : PollParams) (lastSha : Option ObjectId)
    (initial : Option DateTime) (errors : LastErrors) (events : List DriveEvent) (s : Traced)
    (hrun : Transition.run (Traced.drive params) (.start lastSha initial errors) events = some s)
    (hclock : (initial.toList ++ readings events).Pairwise (· ≤ ·)) :
    (stamps initial s).IsChain fun a b : DateTime => a + params.effectivePoll.cooldown ≤ b :=
  (Spaced.of_run hrun hclock).chain

/-- A flow restarted with a stamp of time zero suppresses the change it finds
half an hour later and fires once the hour is over. -/
theorem restarted_flow_waits_out_cooldown :
    ∃ s, Transition.run (Traced.drive kernelOrgParams) (.start (some (.repeated 10)) (some 0) ∅)
        [.wake, .acquired, .cycled (.ok (.refreshed (.repeated 11)), none) (seconds 1800),
          .stateAccepted (seconds 1800), .wake, .acquired,
          .cycled (.ok (.refreshed (.repeated 11)), none) (seconds 3600), .triggerAccepted,
          .stateAccepted (seconds 3600)] = some s ∧
      stamps (some 0) s = [0, (seconds 3600 : Nat)] ∧
      (stamps (some 0) s).IsChain fun a b : DateTime =>
        a + kernelOrgParams.effectivePoll.cooldown ≤ b := by
  have h := triggers_spaced_by_cooldown kernelOrgParams (some (.repeated 10)) (some 0) ∅
    [.wake, .acquired, .cycled (.ok (.refreshed (.repeated 11)), none) (seconds 1800),
      .stateAccepted (seconds 1800), .wake, .acquired,
      .cycled (.ok (.refreshed (.repeated 11)), none) (seconds 3600), .triggerAccepted,
      .stateAccepted (seconds 3600)] _ rfl (by decide)
  exact ⟨_, rfl, by decide, h⟩

end Gcit.Poll
