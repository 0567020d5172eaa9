import Gcit.Supervisor.Stream
import Gcit.Supervisor.Tokens
import Mathlib.Data.List.Induction

/-! # The seed of a flow whose source moved

A reload that moves a running flow to another url sends the flow's removal to the
writer before it spawns the new generation, and then reads the mirror. What it
reads is decided by what the writer has published by then.
-/

namespace Gcit.Supervisor

open Std Gcit Gcit.Git Gcit.Poll Gcit.Library Gcit.Library.Channel Gcit.Library.OrderedMap

def recordedSha (s : State) (f : String) : Option ObjectId :=
  (s.flows[f]?).bind fun entry => entry.lastSha.bind ObjectId.fromHex

theorem readPersistedLastSha_eq {mirror : Writer.Mutex State} (h : mirror.poisoned = false)
    (f : String) : readPersistedLastSha mirror f = recordedSha mirror.value f := by
  rw [readPersistedLastSha, h]
  rfl

def observes (f : String) : StateUpdate → Bool
  | .pollObservation flow .. => flow == f
  | _ => false

theorem finishRun_lastSha {entry entry' : FlowState} {runId : UInt64} {conclusion : String}
    {at_ : DateTime} (h : entry.finishRun runId conclusion at_ = some entry') :
    entry'.lastSha = entry.lastSha := by
  unfold FlowState.finishRun at h
  split at h
  · cases h
  · obtain ⟨run, -, rfl⟩ := Option.map_eq_some_iff.mp h
    rfl

theorem startRun_lastSha (entry : FlowState) (runId : UInt64) (at_ : DateTime) :
    (entry.startRun runId at_).lastSha = entry.lastSha := by
  unfold FlowState.startRun
  split <;> rfl

theorem recordedSha_observation (s : State) (f : String) (sha : ObjectId) (at_ : DateTime)
    (dispatched cooldown : Option DateTime) :
    recordedSha (s.apply (.pollObservation f sha at_ dispatched cooldown)) f = some sha := by
  have hentry := State.lookup_apply_self s (.pollObservation f sha at_ dispatched cooldown)
  simp only [StateUpdate.flow] at hentry
  simp [recordedSha, hentry, FlowState.after, FlowState.observe, ObjectId.fromHex_toHex]

theorem recordedSha_removed (s : State) (f : String) :
    recordedSha (s.apply (.flowRemoved f)) f = none := by
  have hentry := State.lookup_apply_self s (.flowRemoved f)
  simp only [StateUpdate.flow] at hentry
  simp [recordedSha, hentry, FlowState.after]

theorem recordedSha_other (s : State) {f : String} {u : StateUpdate} (hu : observes f u = false)
    (hremoved : u ≠ .flowRemoved f) : recordedSha (s.apply u) f = recordedSha s f := by
  rw [recordedSha, State.lookup_apply, recordedSha]
  split
  · next hflow =>
    cases u with
    | pollObservation flow => simp [observes, StateUpdate.flow] at hu hflow; exact absurd hflow hu
    | pollTimestamp | runStarted =>
      cases s.flows[f]? <;> simp [FlowState.after, startRun_lastSha]
    | runFinished flow runId conclusion at_ =>
      cases hentry : s.flows[f]? with
      | none => rfl
      | some entry =>
        cases hfinish : entry.finishRun runId conclusion at_ with
        | none => simp [FlowState.after, hfinish]
        | some entry' => simp [FlowState.after, hfinish, finishRun_lastSha hfinish]
    | flowRemoved flow => exact absurd (congrArg _ hflow) hremoved
  · rfl

/-- The last of the updates that decides about the flow's SHA removes it, or none
does and the state they start from has none. -/
def ShaFree (initial : State) (f : String) (us : List StateUpdate) : Prop :=
  (∃ pre post, us = pre ++ .flowRemoved f :: post ∧ ∀ u ∈ post, observes f u = false) ∨
    recordedSha initial f = none ∧ ∀ u ∈ us, observes f u = false

theorem shaFree_concat {initial : State} {f : String} {us : List StateUpdate} {u : StateUpdate} :
    ShaFree initial f (us ++ [u]) ↔
      u = .flowRemoved f ∨ observes f u = false ∧ ShaFree initial f us := by
  constructor
  · rintro (⟨pre, post, heq, hpost⟩ | ⟨hnone, hus⟩)
    · obtain rfl | ⟨post, v, rfl⟩ := post.eq_nil_or_concat
      · exact .inl (List.append_inj_right' heq rfl |> List.singleton_inj.mp)
      · rw [List.concat_eq_append] at heq hpost
        rw [← List.cons_append, ← List.append_assoc] at heq
        obtain ⟨rfl, hv⟩ := List.append_inj' heq rfl
        obtain rfl := List.singleton_inj.mp hv
        refine .inr ⟨hpost u (by simp), .inl ⟨pre, post, rfl, fun w hw => ?_⟩⟩
        exact hpost w (List.mem_append_left _ hw)
    · exact .inr ⟨hus u (by simp), .inr ⟨hnone, fun w hw => hus w (List.mem_append_left _ hw)⟩⟩
  · rintro (rfl | ⟨hu, ⟨pre, post, rfl, hpost⟩ | ⟨hnone, hus⟩⟩)
    · exact .inl ⟨us, [], rfl, nofun⟩
    · refine .inl ⟨pre, post ++ [u], by simp, fun w hw => ?_⟩
      obtain hw | hw := List.mem_append.mp hw
      · exact hpost w hw
      · exact List.mem_singleton.mp hw ▸ hu
    · refine .inr ⟨hnone, fun w hw => ?_⟩
      obtain hw | hw := List.mem_append.mp hw
      · exact hus w hw
      · exact List.mem_singleton.mp hw ▸ hu

theorem recordedSha_eq_none_iff (initial : State) (f : String) (us : List StateUpdate) :
    recordedSha (initial.applyAll us) f = none ↔ ShaFree initial f us := by
  induction us using List.reverseRecOn with
  | nil => simp [ShaFree]
  | append_singleton us u ih =>
    rw [State.applyAll_concat, shaFree_concat]
    rcases eq_or_ne u (.flowRemoved f) with rfl | hremoved
    · exact iff_of_true (recordedSha_removed _ f) (.inl rfl)
    · cases hu : observes f u with
      | false =>
        rw [recordedSha_other _ hu hremoved, ih]
        simp [hremoved]
      | true =>
        cases u with
        | pollObservation flow sha at_ dispatched cooldown =>
          obtain rfl : flow = f := by simpa [observes] using hu
          rw [recordedSha_observation]
          simp
        | _ => cases hu

/-- The removal of `f` was sent after the updates `before`. -/
def RemovalSent (f : String) (before sent : List StateUpdate) : Prop :=
  ∃ since, sent = before ++ since ∧ .flowRemoved f ∈ since

/-- A reload is under way that resets `f`, begun when `before` had been sent. -/
def Resetting (f : String) (before sent : List StateUpdate) : Pc → Prop
  | .draining reload _ =>
    f ∈ reload.plan.urlResets ∧ f ∉ reload.plan.toKeep ∧ before <+: sent
  | .emitting reload names =>
    f ∉ reload.plan.toKeep ∧ (f ∈ names ∧ before <+: sent ∨ RemovalSent f before sent)
  | .spawning reload _ => f ∉ reload.plan.toKeep ∧ RemovalSent f before sent
  | _ => False

namespace Resetting

variable {f : String} {before sent sent' : List StateUpdate} {pc : Pc}

theorem removalSent_grow (h : RemovalSent f before sent) (hgrow : sent <+: sent') :
    RemovalSent f before sent' := by
  obtain ⟨since, rfl, hmem⟩ := h
  obtain ⟨more, rfl⟩ := hgrow
  exact ⟨since ++ more, List.append_assoc .., List.mem_append_left _ hmem⟩

theorem grow (h : Resetting f before sent pc) (hgrow : sent <+: sent') :
    Resetting f before sent' pc := by
  match pc, h with
  | .draining _ _, ⟨hreset, hkeep, hpre⟩ => exact ⟨hreset, hkeep, hpre.trans hgrow⟩
  | .emitting _ _, ⟨hkeep, .inl ⟨hmem, hpre⟩⟩ => exact ⟨hkeep, .inl ⟨hmem, hpre.trans hgrow⟩⟩
  | .emitting _ _, ⟨hkeep, .inr hsent⟩ => exact ⟨hkeep, .inr (removalSent_grow hsent hgrow)⟩
  | .spawning _ _, ⟨hkeep, hsent⟩ => exact ⟨hkeep, removalSent_grow hsent hgrow⟩

theorem emitted {reload : Reload} {name : String} {names : List String}
    (h : Resetting f before sent (.emitting reload (name :: names))) :
    Resetting f before (sent ++ [.flowRemoved name]) (.emitting reload names) := by
  obtain ⟨hkeep, ⟨hmem, hpre⟩ | hsent⟩ := h
  · obtain rfl | hmem := List.mem_cons.mp hmem
    · obtain ⟨since, rfl⟩ := hpre
      exact ⟨hkeep, .inr ⟨since ++ [.flowRemoved f], List.append_assoc .., by simp⟩⟩
    · exact ⟨hkeep, .inl ⟨hmem, hpre.trans (List.prefix_append _ _)⟩⟩
  · exact ⟨hkeep, .inr (removalSent_grow hsent (List.prefix_append _ _))⟩

theorem step {crates : Crates} {d d' : Daemon} {e : Event} (h : Resetting f before d.sent d.pc)
    (he : e ≠ .finalize) (hstep : d.step crates e = some d') :
    Resetting f before d'.sent d'.pc := by
  have htraffic := Daemon.step_traffic hstep
  have hgrow : d.sent <+: d'.sent := htraffic.sent_grows
  have hchange := Daemon.step_change hstep
  generalize d'.runtime = r, d'.config = config, hpc' : d'.pc = pc' at hchange
  cases hchange with
  | frame | finish => exact h.grow hgrow
  | exit hpc | release _ hpc | respawn _ _ hpc | reload _ hpc | bootSpawn _ _ hpc | bootSkip hpc =>
    rw [hpc] at h
    exact h.elim
  | drainJoin hpc =>
    rw [hpc] at h
    exact h.grow hgrow
  | drained hpc | timedOut hpc =>
    rw [hpc] at h
    obtain ⟨hreset, hkeep, hpre⟩ := h
    exact ⟨hkeep, .inl ⟨List.mem_append_right _ hreset, hpre.trans hgrow⟩⟩
  | emitted hpc =>
    rw [hpc] at h
    generalize hs : d'.stream = s at htraffic
    cases htraffic with
    | still hne => exact absurd rfl hne
    | removed hpc₂ =>
      cases hpc.symm.trans hpc₂
      rw [show d'.sent = _ from congrArg Stream.sent hs]
      exact h.emitted
  | pushed hpc =>
    rw [hpc] at h
    obtain ⟨hkeep, ⟨hmem, -⟩ | hsent⟩ := h
    · cases hmem
    · exact ⟨hkeep, removalSent_grow hsent hgrow⟩
  | reloadSpawn _ _ hpc | reloadFailed hpc | reloadSkip hpc =>
    rw [hpc] at h
    exact ⟨h.1, removalSent_grow h.2 hgrow⟩
  | bootDone | reloadDone => exact absurd rfl he

theorem begin {crates : Crates} {d d' : Daemon} {new : Config} {of nf : FlowConfig}
    (hstep : d.step crates (.reload (.ok new)) = some d')
    (hlive : (d.runtime.handles[f]?).isSome) (hold : d.config.find? f = some of)
    (hnew : new.find? f = some nf) (hurl : of.source.url ≠ nf.source.url) :
    Resetting f d.sent d'.sent d'.pc := by
  have hplan := planned crates d.config new d.runtime
  simp only [Daemon.step] at hstep
  split at hstep
  · cases hstep
    refine ⟨(hplan.urlResets f).mpr ⟨hlive, of, nf, hold, hnew, hurl⟩, fun hkeep => ?_,
      List.prefix_refl _⟩
    obtain ⟨-, of', nf', hold', hnew', -, hsame⟩ := (hplan.toKeep f).mp hkeep
    rw [hold] at hold'
    rw [hnew] at hnew'
    cases hold'
    cases hnew'
    exact hurl (congrArg SourceConfig.url (source_eq_of_unchanged hsame))
  · cases hstep

end Resetting

theorem Daemon.spawnNext_seeds (crates : Crates) {d : Daemon} {reload : Reload} {flow : FlowConfig}
    {rest : List FlowConfig} (hpc : d.pc = .spawning reload (flow :: rest))
    (hskip : ¬ (flow.enabled = false ∨ reload.plan.toKeep.contains flow.name)) :
    ∃ d', d.step crates (.spawnNext .ready) = some d' ∧
      ∃ t ∈ d'.runtime.joinSet, t.id = (d.runtime.nextToken, .poll) ∧ t.config = flow ∧
        t.initialLastSha = readPersistedLastSha d.writer.mirror flow.name := by
  refine ⟨d.spawnNewGeneration crates reload flow rest .ready, by simp only [step, hpc], ?_⟩
  simp only [spawnNewGeneration, if_neg hskip]
  exact ⟨_, Runtime.mem_addPair.mpr (.inr ⟨.poll, rfl⟩), rfl, rfl, rfl⟩

/-- Whatever happens between the load of a configuration that moves the live flow
`f` and the spawn of its new generation: the removal of `f` has been sent, and
the new poll task is seeded with nothing if and only if the updates the writer
has published by then leave no SHA recorded for `f`. -/
theorem moved_flow_seeded_none_iff (crates : Crates) (config : Config) (disk : Option State)
    (now : DateTime) (observed : List Observation) (pre post : List Event) (m d : Daemon)
    (new : Config) (f : String) (of nf flow : FlowConfig) (reload : Reload) (rest : List FlowConfig)
    (hpre : Transition.run (Daemon.step crates) (boot config disk now observed) pre = some m)
    (hlive : (m.runtime.handles[f]?).isSome) (hold : m.config.find? f = some of)
    (hnew : new.find? f = some nf) (hurl : of.source.url ≠ nf.source.url)
    (hpost : Transition.run (Daemon.step crates) m (.reload (.ok new) :: post) = some d)
    (hsame : ∀ e ∈ post, e ≠ .finalize) (hpc : d.pc = .spawning reload (flow :: rest))
    (hname : flow.name = f) (henabled : flow.enabled = true) :
    RemovalSent f m.sent d.sent ∧
      ∃ d', d.step crates (.spawnNext .ready) = some d' ∧
        ∃ t ∈ d'.runtime.joinSet, t.id = (d.runtime.nextToken, .poll) ∧ t.config = flow ∧
          (t.initialLastSha = none ↔ ShaFree (Writer.loadOrInit disk) f
            (d.ledger.received.take d.ledger.published)) := by
  obtain ⟨m', hload, hrest⟩ := Transition.run_cons_eq_some.mp hpost
  have hreset := Transition.invariant_along (C := fun _ e => e ≠ .finalize)
    (I := fun d => Resetting f m.sent d.sent d.pc) (fun _ _ _ h he hstep => h.step he hstep)
    (Resetting.begin hload hlive hold hnew hurl) (Transition.along_of_forall fun e he _ => hsame e he)
    hrest
  rw [hpc] at hreset
  have hrun := Transition.run_append_eq_some.mpr ⟨m, hpre, hpost⟩
  have hmirror : Writer.MirrorTracks (Writer.loadOrInit disk) d.writer d.ledger :=
    (Delivers.run crates hrun).mirror
  have hskip : ¬ (flow.enabled = false ∨ reload.plan.toKeep.contains flow.name) := by
    rintro (hdisabled | hkeep)
    · rw [henabled] at hdisabled
      cases hdisabled
    · exact hreset.1 (hname ▸ by simpa using hkeep)
  have hvalue : d.writer.mirror.value = (Writer.loadOrInit disk).applyAll
      (d.ledger.received.take d.ledger.published) := hmirror.mirror
  obtain ⟨d', hstep, t, ht, hid, hflow, hseed⟩ := Daemon.spawnNext_seeds crates hpc hskip
  refine ⟨hreset.2, d', hstep, t, ht, hid, hflow, ?_⟩
  rw [hseed, hname, readPersistedLastSha_eq hmirror.unpoisoned, hvalue, recordedSha_eq_none_iff]

def writerRound : List Event :=
  [.writerReceive 1, .writer .apply, .writer .apply, .writer (.persist .ok), .writer .publish]

/-- A flow on the first tree has its head observed and recorded. -/
def recordedHead : List Event :=
  [.spawnNext .ready, .finalize,
    .observe (0, .poll) (.pollObservation "linux" (.repeated 10) 0 (some 0) none)] ++ writerRound

/-- Its tasks end on the reload that moves it to the second tree, up to the spawn. -/
def movedHead : List Event :=
  [.finish (0, .poll) .returned, .finish (0, .dispatcher) .returned, .drainJoin (0, .poll),
    .drainJoin (0, .dispatcher), .drainDone, .emit, .pushConfig]

theorem moved_flow_seeded_none :
    ∃ m d d', Transition.run (Daemon.step kernelCrates)
        (boot (oneFlow (kernelFlow "linux" "linux.git" "refs/heads/master")) none 0 [])
        recordedHead = some m ∧
      Transition.run (Daemon.step kernelCrates) m
        (.reload (.ok (oneFlow (kernelFlow "linux" "stable.git" "refs/heads/master"))) ::
          (movedHead ++ writerRound)) = some d ∧
      d.step kernelCrates (.spawnNext .ready) = some d' ∧
      ∃ t ∈ d'.runtime.joinSet, t.id = (1, .poll) ∧ t.initialLastSha = none := by
  obtain ⟨m, hrecorded, hlive, hold, d, hmoved, hpc, htoken, hpublished⟩ :
      ∃ m ∈ Transition.run (Daemon.step kernelCrates)
        (boot (oneFlow (kernelFlow "linux" "linux.git" "refs/heads/master")) none 0 [])
        recordedHead,
        (m.runtime.handles["linux"]?).isSome = true ∧
        m.config.find? "linux" = some (kernelFlow "linux" "linux.git" "refs/heads/master") ∧
        ∃ d ∈ Transition.run (Daemon.step kernelCrates) m
          (.reload (.ok (oneFlow (kernelFlow "linux" "stable.git" "refs/heads/master"))) ::
            (movedHead ++ writerRound)),
          d.pc = .spawning ⟨oneFlow (kernelFlow "linux" "stable.git" "refs/heads/master"),
            ⟨∅, ["linux"], []⟩, false, []⟩
            [kernelFlow "linux" "stable.git" "refs/heads/master"] ∧
          d.runtime.nextToken = 1 ∧
          d.ledger.received.take d.ledger.published =
            [.pollObservation "linux" (.repeated 10) 0 (some 0) none, .flowRemoved "linux"] := by
    decide +kernel
  obtain ⟨-, d', hstep, t, ht, hid, -, hseed⟩ := moved_flow_seeded_none_iff kernelCrates
    (oneFlow (kernelFlow "linux" "linux.git" "refs/heads/master")) none 0 [] recordedHead
    (movedHead ++ writerRound) m d (oneFlow (kernelFlow "linux" "stable.git" "refs/heads/master"))
    "linux" (kernelFlow "linux" "linux.git" "refs/heads/master")
    (kernelFlow "linux" "stable.git" "refs/heads/master")
    (kernelFlow "linux" "stable.git" "refs/heads/master")
    ⟨oneFlow (kernelFlow "linux" "stable.git" "refs/heads/master"), ⟨∅, ["linux"], []⟩, false, []⟩ []
    hrecorded hlive hold (by decide +kernel) (by decide +kernel) hmoved
    (by simp [movedHead, writerRound]) hpc rfl rfl
  rw [htoken] at hid
  refine ⟨m, d, d', hrecorded, hmoved, hstep, t, ht, hid, hseed.mpr ?_⟩
  exact .inl ⟨[.pollObservation "linux" (.repeated 10) 0 (some 0) none], [], hpublished, nofun⟩

/-- The writer has not taken the removal from its queue when the flow is spawned:
the poll task of the second tree is seeded with the head of the first. -/
theorem moved_flow_seeded_with_old_sha :
    ∃ m d d', Transition.run (Daemon.step kernelCrates)
        (boot (oneFlow (kernelFlow "linux" "linux.git" "refs/heads/master")) none 0 [])
        recordedHead = some m ∧
      (m.runtime.handles["linux"]?).isSome ∧
      Transition.run (Daemon.step kernelCrates) m
        (.reload (.ok (oneFlow (kernelFlow "linux" "stable.git" "refs/heads/master"))) ::
          movedHead) = some d ∧
      d.stateQueue.queue = [.flowRemoved "linux"] ∧
      d.step kernelCrates (.spawnNext .ready) = some d' ∧
      ∃ t ∈ d'.runtime.joinSet, t.id = (1, .poll) ∧
        t.config = kernelFlow "linux" "stable.git" "refs/heads/master" ∧
        t.initialLastSha = some (.repeated 10) := by
  obtain ⟨m, hrecorded, hlive, d, hmoved, hqueue, d', hspawn, hseed⟩ :
      ∃ m ∈ Transition.run (Daemon.step kernelCrates)
        (boot (oneFlow (kernelFlow "linux" "linux.git" "refs/heads/master")) none 0 [])
        recordedHead,
        (m.runtime.handles["linux"]?).isSome = true ∧
        ∃ d ∈ Transition.run (Daemon.step kernelCrates) m
          (.reload (.ok (oneFlow (kernelFlow "linux" "stable.git" "refs/heads/master"))) ::
            movedHead),
          d.stateQueue.queue = [.flowRemoved "linux"] ∧
          ∃ d' ∈ d.step kernelCrates (.spawnNext .ready),
            ∃ t ∈ d'.runtime.joinSet, t.id = (1, .poll) ∧
              t.config = kernelFlow "linux" "stable.git" "refs/heads/master" ∧
              t.initialLastSha = some (.repeated 10) := by
    decide +kernel
  exact ⟨m, d, d', hrecorded, hlive, hmoved, hqueue, hspawn, hseed⟩

end Gcit.Supervisor
