import Mathlib.Data.List.Chain
import Gcit.Poll.Fingerprint
import Gcit.Poll.Driver

/-! # The trigger goes before its observation

An observation of another id than the last one leaves the loop only behind the
accepted trigger for that id, and the loop remembers the id with it. So what is
remembered, what is persisted and what was triggered stay in step, wherever a
cancellation or a closed channel cuts the loop off.
-/

namespace Gcit.Poll

open Gcit Gcit.Git Gcit.Library

def Carries (sha : ObjectId) (u : StateUpdate) : Prop :=
  ∃ flow at_ dispatched cooldown, u = .pollObservation flow sha at_ dispatched cooldown

def TriggeredLast (sha : ObjectId) (log : List Output) : Prop :=
  ∃ signal, log.getLast? = some (.trigger signal) ∧ signal.observedSha = sha

theorem Carries.unique {sha sha' : ObjectId} {u : StateUpdate} (h : Carries sha u)
    (h' : Carries sha' u) : sha = sha' := by
  obtain ⟨flow, at_, dispatched, cooldown, rfl⟩ := h
  obtain ⟨flow', at_', dispatched', cooldown', heq⟩ := h'
  cases heq
  rfl

/-- The trigger for `sha` was just accepted, or this is the first observation of
a flow that was started without an id. -/
def Backed (initial : Option ObjectId) (s : Traced) (sha : ObjectId) : Prop :=
  TriggeredLast sha s.log ∨ initial = none ∧ s.persisted = []

/-- What the loop is sending, against what it remembers. -/
def Pending (s : Traced) : Prop :=
  match s.loop.pc with
  | .sendTrigger signal u =>
    (∃ old, s.loop.lastSha = some old ∧ old ≠ signal.observedSha) ∧ Carries signal.observedSha u
  | .sendObservation signal u =>
    Carries signal.observedSha u ∧ s.log.getLast? = some (.trigger signal)
  | .sendState u (.advance sha) =>
    (s.loop.lastSha = none ∨ s.loop.lastSha = some sha) ∧ Carries sha u
  | .sendState u _ => ∃ flow at_, u = .pollTimestamp flow at_
  | _ => True

def shas (s : Traced) : List ObjectId := s.accepted.map TriggerSignal.observedSha

structure InStep (initial : Option ObjectId) (s : Traced) : Prop where
  remembered : s.loop.lastSha = s.persisted.getLast?.or initial
  pending : Pending s
  last : ∀ sha, (shas s).getLast? = some sha → s.loop.lastSha = some sha ∨
    (∃ signal u, s.loop.pc = .sendObservation signal u ∧ signal.observedSha = sha) ∨
      s.loop.pc = .exited
  chain : (shas s).IsChain (· ≠ ·)
  known : ∀ sha ∈ s.persisted, initial = some sha ∨ sha ∈ shas s ∨
    initial = none ∧ s.persisted.head? = some sha

namespace InStep

variable {params : PollParams} {initial : Option ObjectId} {s s' : Traced} {e : DriveEvent}

theorem start (lastDispatchedAt : Option DateTime) (lastErrors : LastErrors) :
    InStep initial (.start initial lastDispatchedAt lastErrors) where
  remembered := rfl
  pending := trivial
  last := by simp [shas, Traced.accepted, Traced.start]
  chain := .nil
  known := by simp [Traced.persisted, Traced.start]

theorem pending_of_idle (h : s.loop.pc.Idle) : Pending s := by
  unfold Pending
  cases hpc : s.loop.pc <;> simp_all [Pc.Idle]

theorem shas_of_update {u : StateUpdate} (hlog : s'.log = s.log ++ [.update u]) :
    shas s' = shas s := by
  simp [shas, Traced.accepted, hlog]

theorem persisted_of_carries {sha : ObjectId} {u : StateUpdate} (hu : Carries sha u)
    (hlog : s'.log = s.log ++ [.update u]) : s'.persisted = s.persisted ++ [sha] := by
  obtain ⟨flow, at_, dispatched, cooldown, rfl⟩ := hu
  simp [Traced.persisted, hlog]

theorem head?_concat {sha a : ObjectId} {l : List ObjectId} (h : l.head? = some a) :
    (l ++ [sha]).head? = some a := by
  rw [List.head?_append, h]
  rfl

theorem silent (h : InStep initial s) (hshas : shas s' = shas s)
    (hper : s'.persisted = s.persisted)
    (hsha : s'.loop.lastSha = s.loop.lastSha) (hpending : Pending s')
    (hlost : ∀ signal u, s.loop.pc = .sendObservation signal u → s'.loop.pc = .exited)
    (hlive : s.loop.pc ≠ .exited) : InStep initial s' := by
  refine ⟨?_, hpending, ?_, hshas ▸ h.chain, ?_⟩
  · rw [hsha, hper, h.remembered]
  · intro sha hlast
    rw [hshas] at hlast
    rcases h.last sha hlast with hrem | ⟨signal, u, hpc, -⟩ | hexit
    · exact .inl (hsha.trans hrem)
    · exact .inr (.inr (hlost signal u hpc))
    · exact absurd hexit hlive
  · rw [hshas, hper]
    exact h.known

theorem observed (h : InStep initial s) {sha : ObjectId} {u : StateUpdate} (hu : Carries sha u)
    (hlog : s'.log = s.log ++ [.update u]) (hsha : s'.loop.lastSha = some sha)
    (hpc : s'.loop.pc = .sleeping)
    (hlast : ∀ a, (shas s).getLast? = some a → a = sha)
    (hknown : initial = some sha ∨ sha ∈ shas s ∨ initial = none ∧ s.persisted = [] ∨
      sha ∈ s.persisted) : InStep initial s' := by
  have hshas := shas_of_update hlog
  have hper := persisted_of_carries hu hlog
  refine ⟨?_, ?_, ?_, hshas ▸ h.chain, ?_⟩
  · rw [hsha, hper, List.getLast?_concat]
    rfl
  · exact pending_of_idle (by simp [hpc, Pc.Idle])
  · intro a ha
    rw [hshas] at ha
    exact .inl (hlast a ha ▸ hsha)
  · intro a ha
    rw [hshas, hper]
    have hold : ∀ b ∈ s.persisted, initial = some b ∨ b ∈ shas s ∨
        initial = none ∧ (s.persisted ++ [sha]).head? = some b := by
      intro b hb
      rcases h.known b hb with hk | hk | ⟨hnone, hhead⟩
      · exact .inl hk
      · exact .inr (.inl hk)
      · exact .inr (.inr ⟨hnone, head?_concat hhead⟩)
    rw [hper, List.mem_append, List.mem_singleton] at ha
    rcases ha with ha | rfl
    · exact hold a ha
    · rcases hknown with hk | hk | ⟨hnone, hempty⟩ | hk
      · exact .inl hk
      · exact .inr (.inl hk)
      · exact .inr (.inr ⟨hnone, by rw [hempty]; rfl⟩)
      · exact hold a hk

theorem accept (h : InStep initial s) {signal : TriggerSignal} {u : StateUpdate}
    (hlog : s'.log = s.log ++ [.trigger signal]) (hpc : s.loop.pc = .sendTrigger signal u)
    (hpc' : s'.loop.pc = .sendObservation signal u) (hsha : s'.loop.lastSha = s.loop.lastSha) :
    InStep initial s' := by
  have hpending := h.pending
  simp only [Pending, hpc] at hpending
  obtain ⟨⟨old, hold, hne⟩, hcarries⟩ := hpending
  have hper : s'.persisted = s.persisted := by simp [Traced.persisted, hlog]
  have hshas : shas s' = shas s ++ [signal.observedSha] := by simp [shas, Traced.accepted, hlog]
  refine ⟨?_, ?_, ?_, ?_, ?_⟩
  · rw [hper, hsha, h.remembered]
  · simp only [Pending, hpc']
    exact ⟨hcarries, by rw [hlog, List.getLast?_concat]⟩
  · intro sha hlast
    rw [hshas, List.getLast?_concat] at hlast
    exact .inr (.inl ⟨signal, u, hpc', Option.some.inj hlast⟩)
  · -- the last accepted id is the remembered one, and this one differs from it
    rw [hshas, List.isChain_append]
    refine ⟨h.chain, .singleton _, ?_⟩
    intro a ha b hb
    obtain rfl : signal.observedSha = b := by simpa using hb
    rcases h.last a ha with hrem | ⟨signal', u', hbad, -⟩ | hbad
    · rw [hold] at hrem
      exact Option.some.inj hrem ▸ hne
    · rw [hpc] at hbad
      cases hbad
    · rw [hpc] at hbad
      cases hbad
  · intro sha hmem
    rw [hper] at hmem
    rw [hper, hshas]
    rcases h.known sha hmem with hk | hk | hk
    · exact .inl hk
    · exact .inr (.inl (List.mem_append_left _ hk))
    · exact .inr (.inr hk)

theorem remembered_known (h : InStep initial s) {sha : ObjectId} (hsha : s.loop.lastSha = some sha) :
    initial = some sha ∨ sha ∈ s.persisted := by
  rw [h.remembered] at hsha
  cases hlast : s.persisted.getLast? with
  | none =>
    rw [hlast] at hsha
    exact .inl hsha
  | some a =>
    rw [hlast] at hsha
    obtain rfl : a = sha := Option.some.inj hsha
    exact .inr (List.mem_of_getLast? hlast)

theorem fresh_of_none (h : InStep initial s) (hsha : s.loop.lastSha = none) :
    initial = none ∧ s.persisted = [] := by
  rw [h.remembered, Option.or_eq_none_iff] at hsha
  exact ⟨hsha.2, List.getLast?_eq_none_iff.mp hsha.1⟩

theorem last_of_sendState (h : InStep initial s) {u : StateUpdate} {next : AfterSend}
    (hpc : s.loop.pc = .sendState u next) {a : ObjectId} (ha : (shas s).getLast? = some a) :
    s.loop.lastSha = some a := by
  rcases h.last a ha with hrem | ⟨signal, v, hbad, -⟩ | hbad
  · exact hrem
  · rw [hpc] at hbad
    cases hbad
  · rw [hpc] at hbad
    cases hbad

theorem timestamp_of_keep (h : InStep initial s) {u : StateUpdate} {next : AfterSend}
    (hpc : s.loop.pc = .sendState u next) (hnext : next = .keep ∨ next = .unborn) :
    ∃ flow at_, u = .pollTimestamp flow at_ := by
  have hpending := h.pending
  rcases hnext with rfl | rfl
  · simpa only [Pending, hpc] using hpending
  · simpa only [Pending, hpc] using hpending

theorem shas_of_trigger_last {signal : TriggerSignal}
    (hlast : s.log.getLast? = some (.trigger signal)) :
    (shas s).getLast? = some signal.observedSha := by
  obtain ⟨log, hlog⟩ := List.getLast?_eq_some_iff.mp hlast
  simp [shas, Traced.accepted, hlog]

theorem drive (h : InStep initial s) (hstep : s.drive params e = some s') : InStep initial s' := by
  obtain ⟨out, hlog, hmoves⟩ := Traced.drive_eq_some hstep
  have hquiet : out = [] → shas s' = shas s ∧ s'.persisted = s.persisted := by
    rintro rfl
    simp [shas, Traced.accepted, Traced.persisted, hlog]
  cases hmoves with
  | quiet hpc hlost hlive hsha hat =>
    exact h.silent (hquiet rfl).1 (hquiet rfl).2 hsha (pending_of_idle hpc) hlost hlive
  | @fire result now sha old until_ hpoll hold hne hcool hpc hsha hat =>
    refine h.silent (hquiet rfl).1 (hquiet rfl).2 hsha ?_ (by simp [hpoll]) (by simp [hpoll])
    simp only [Pending, hpc]
    exact ⟨⟨old, hsha.trans hold, hne⟩, _, _, _, _, rfl⟩
  | @observe result now sha hpoll hsame hpc hsha hat =>
    refine h.silent (hquiet rfl).1 (hquiet rfl).2 hsha ?_ (by simp [hpoll]) (by simp [hpoll])
    simp only [Pending, hpc, hsha]
    exact ⟨hsame, _, _, _, _, rfl⟩
  | @refresh result now next hpoll hnext hpc hsha hat =>
    refine h.silent (hquiet rfl).1 (hquiet rfl).2 hsha ?_ (by simp [hpoll]) (by simp [hpoll])
    rcases hnext with rfl | rfl <;> simp [Pending, hpc]
  | accept hpc hpc' hsha hat => exact h.accept hlog hpc hpc' hsha
  | @confirm signal u now hpc hpc' hsha hat =>
    have hpending := h.pending
    simp only [Pending, hpc] at hpending
    obtain ⟨hcarries, hlast⟩ := hpending
    have hshas := shas_of_trigger_last hlast
    refine h.observed hcarries hlog hsha hpc' ?_ (.inr (.inl (List.mem_of_getLast? hshas)))
    intro a ha
    exact Option.some.inj (ha.symm.trans hshas)
  | @advance u sha now hpc hpc' hsha hat =>
    have hpending := h.pending
    simp only [Pending, hpc] at hpending
    obtain ⟨hsame, hcarries⟩ := hpending
    refine h.observed hcarries hlog hsha hpc' ?_ ?_
    · intro a ha
      have hrem := h.last_of_sendState hpc ha
      rcases hsame with hnone | hsome
      · rw [hnone] at hrem
        cases hrem
      · exact Option.some.inj (hrem.symm.trans hsome)
    · rcases hsame with hnone | hsome
      · exact .inr (.inr (.inl (h.fresh_of_none hnone)))
      · rcases h.remembered_known hsome with hk | hk
        · exact .inl hk
        · exact .inr (.inr (.inr hk))
  | @keep u next now hpc hnext hpc' hsha hat =>
    obtain ⟨flow, at_, rfl⟩ := h.timestamp_of_keep hpc hnext
    have hper : s'.persisted = s.persisted := by simp [Traced.persisted, hlog]
    exact h.silent (shas_of_update hlog) hper hsha (pending_of_idle (by simp [hpc', Pc.Idle]))
      (by simp [hpc]) (by simp [hpc])

theorem drive_backed (h : InStep initial s) (hstep : s.drive params e = some s') :
    (s'.loop.lastSha = s.loop.lastSha ∧
      ∀ sha u, Carries sha u → s'.log = s.log ++ [.update u] → s.loop.lastSha = some sha) ∨
    ∃ sha u, Carries sha u ∧ s'.log = s.log ++ [.update u] ∧ s'.loop.lastSha = some sha ∧
      Backed initial s sha := by
  obtain ⟨out, hlog, hmoves⟩ := Traced.drive_eq_some hstep
  have hsilent : out = [] →
      ∀ sha u, Carries sha u → s'.log = s.log ++ [.update u] → s.loop.lastSha = some sha := by
    rintro rfl sha u - hupdate
    rw [hlog] at hupdate
    simp at hupdate
  cases hmoves with
  | quiet hpc hlost hlive hsha hat => exact .inl ⟨hsha, hsilent rfl⟩
  | fire hpoll hold hne hcool hpc hsha hat => exact .inl ⟨hsha, hsilent rfl⟩
  | observe hpoll hsame hpc hsha hat => exact .inl ⟨hsha, hsilent rfl⟩
  | refresh hpoll hnext hpc hsha hat => exact .inl ⟨hsha, hsilent rfl⟩
  | accept hpc hpc' hsha hat =>
    refine .inl ⟨hsha, ?_⟩
    intro sha u hu hupdate
    rw [hlog] at hupdate
    simp at hupdate
  | @confirm signal u now hpc hpc' hsha hat =>
    have hpending := h.pending
    simp only [Pending, hpc] at hpending
    exact .inr ⟨_, u, hpending.1, hlog, hsha, .inl ⟨signal, hpending.2, rfl⟩⟩
  | @advance u sha now hpc hpc' hsha hat =>
    have hpending := h.pending
    simp only [Pending, hpc] at hpending
    obtain ⟨hnone | hsome, hcarries⟩ := hpending
    · exact .inr ⟨sha, u, hcarries, hlog, hsha, .inr (h.fresh_of_none hnone)⟩
    · refine .inl ⟨hsha.trans hsome.symm, ?_⟩
      intro sha' u' hcarries' hupdate
      obtain rfl : u = u' := by simpa [hlog] using hupdate
      rw [hsome, hcarries.unique hcarries']
  | @keep u next now hpc hnext hpc' hsha hat =>
    obtain ⟨flow, at_, rfl⟩ := h.timestamp_of_keep hpc hnext
    refine .inl ⟨hsha, ?_⟩
    rintro sha u ⟨flow', at_', dispatched, cooldown, rfl⟩ hupdate
    rw [hlog] at hupdate
    simp at hupdate

end InStep

/-- Over every run of the loop, under any executor: an id other than the last one
reaches the state writer, and is remembered, only as the baseline of a fresh flow
or right behind the accepted trigger for it; consecutive accepted triggers carry
different ids; and no other id is ever remembered or persisted. -/
theorem trigger_before_observation (params : PollParams) (initial : Option ObjectId)
    (dispatched : Option DateTime) (errors : LastErrors) (events : List DriveEvent) (s : Traced)
    (hrun : Transition.run (Traced.drive params) (.start initial dispatched errors) events =
      some s) :
    (∀ e s', s.drive params e = some s' →
      (∀ sha u, Carries sha u → s'.log = s.log ++ [.update u] → s.loop.lastSha ≠ some sha →
        Backed initial s sha ∧ s'.loop.lastSha = some sha) ∧
      (s'.loop.lastSha ≠ s.loop.lastSha →
        ∃ sha u, Carries sha u ∧ s'.log = s.log ++ [.update u] ∧ s'.loop.lastSha = some sha ∧
          Backed initial s sha)) ∧
    (shas s).IsChain (· ≠ ·) ∧
    ∀ sha, (s.loop.lastSha = some sha ∨ sha ∈ s.persisted) →
      initial = some sha ∨ sha ∈ shas s ∨ initial = none ∧ s.persisted.head? = some sha := by
  have h : InStep initial s := Transition.invariant_run (fun _ _ _ h hstep => h.drive hstep)
    (InStep.start dispatched errors) hrun
  refine ⟨?_, h.chain, ?_⟩
  · intro e s' hstep
    rcases h.drive_backed hstep with ⟨hsame, hsent⟩ | ⟨sha, u, hcarries, hlog, hsha, hbacked⟩
    · exact ⟨fun sha u hu hlog hne => absurd (hsent sha u hu hlog) hne, fun hne => absurd hsame hne⟩
    · refine ⟨?_, fun _ => ⟨sha, u, hcarries, hlog, hsha, hbacked⟩⟩
      intro sha' u' hcarries' hlog' hne
      obtain rfl : u = u' := by simpa [hlog] using hlog'
      obtain rfl := hcarries.unique hcarries'
      exact ⟨hbacked, hsha⟩
  · rintro sha (hsha | hmem)
    · rcases h.remembered_known hsha with hk | hk
      · exact .inl hk
      · exact h.known sha hk
    · exact h.known sha hmem

def finds (sha : ObjectId) (now : DateTime) : List DriveEvent :=
  [.wake, .acquired, .cycled (.ok (.refreshed sha), none) now]

/-- A fresh flow takes its baseline, a second commit is found and its trigger is
accepted; the observation then follows. -/
theorem baseline_then_trigger :
    ∃ s s', Transition.run (Traced.drive kernelOrgParams) (.start none none ∅)
        (finds (.repeated 10) 0 ++ [.stateAccepted 0] ++ finds (.repeated 11) (seconds 60) ++
          [.triggerAccepted]) = some s ∧
      s.drive kernelOrgParams (.stateAccepted (seconds 60)) = some s' ∧
      s.loop.lastSha = some (.repeated 10) ∧ shas s = [.repeated 11] ∧
      Backed none s (.repeated 11) ∧ s'.loop.lastSha = some (.repeated 11) := by
  have h := trigger_before_observation kernelOrgParams none none ∅
    (finds (.repeated 10) 0 ++ [.stateAccepted 0] ++ finds (.repeated 11) (seconds 60) ++
      [.triggerAccepted]) _ rfl
  refine ⟨_, _, rfl, rfl, by decide, by decide, ?_⟩
  exact (h.1 (.stateAccepted (seconds 60)) _ rfl).1 (.repeated 11) _
    ⟨"linux", seconds 60, some (seconds 60), some (seconds 3660), rfl⟩ rfl (by decide)

end Gcit.Poll
