import Gcit.Poll.Fingerprint
import Gcit.Poll.Loop

/-! # A suppressed change and the cycle that should pick it up

While the cooldown is active the loop keeps its last id, so that the next
comparison finds the change again. The comparison is made only when the
executor resolves the ref. With the grokmirror strategy the suppressed cycle has
already cached the fingerprint, and the executor resolves the ref again only
once the manifest lists another one.
-/

namespace Gcit.Poll

open Std Gcit Gcit.Git Gcit.Library

/-- The upstream ref points to `s`: a lookup that succeeds finds `s`. -/
def KeepsSha (s : ObjectId) (net : Network) : Prop :=
  (∀ a, net.githubApi = some (.ok a) → a = .refreshed s) ∧
  ∀ a, net.lsRemote = some (.ok a) → a = .refreshed s

namespace Loop

variable {urls : UrlCrates} {params : PollParams} {l l' : Loop} {net : Network} {now : DateTime}

def Waiting (urls : UrlCrates) (params : PollParams) (s : ObjectId) (l : Loop) : PollEvent → Prop
  | .polled net now => KeepsSha s net ∧
      (isCooledDown l.lastDispatchedAt now params.effectivePoll.cooldown = false ∨
        ∃ e, (l.pollCycle urls params net).1 = .error e)
  | _ => True

theorem step_polled_ok {o : PollOutcome} (h : l.step urls params (.polled net now) = some l')
    (ho : (l.pollCycle urls params net).1 = .ok o) :
    l' = { l with
      fingerprint := (l.pollCycle urls params net).2
      pc := l.handleOutcome params now o } := by
  simp only [step] at h
  obtain ⟨-, rfl⟩ := Transition.guard_eq_some.mp h
  generalize l.pollCycle urls params net = r at ho ⊢
  obtain ⟨result, fingerprint⟩ := r
  obtain rfl : result = .ok o := ho
  rfl

theorem step_polled_error {e : PollCycleError} (h : l.step urls params (.polled net now) = some l')
    (he : (l.pollCycle urls params net).1 = .error e) :
    l'.lastSha = l.lastSha ∧ (l'.pc = .sleeping ∨ l'.pc = .exited) := by
  simp only [step] at h
  obtain ⟨-, rfl⟩ := Transition.guard_eq_some.mp h
  generalize l.pollCycle urls params net = r at he ⊢
  obtain ⟨result, fingerprint⟩ := r
  obtain rfl : result = .error e := he
  cases e with
  | cancelled => exact ⟨rfl, .inr rfl⟩
  | failed message => exact ⟨rfl, .inl rfl⟩

def Holds : Pc → Prop
  | .sendTrigger .. => False
  | .sendObservation .. => False
  | .sendState _ (.advance _) => False
  | _ => True

/-- The change to `s` is still to be found. -/
structure Suppressed (s : ObjectId) (l : Loop) : Prop where
  differs : (compareSha l.lastSha s).trigger = true
  holds : Holds l.pc

@[simp] theorem maybeClearLastError_lastSha : (l.maybeClearLastError params).lastSha = l.lastSha := by
  unfold maybeClearLastError
  split <;> rfl

/-- The cycle goes on to look the ref up: the strategy is not grokmirror, or the
manifest lists a fingerprint other than the cached one. -/
def LooksUp (urls : UrlCrates) (params : PollParams) (l : Loop) (net : Network) : Prop :=
  autoDetect urls params.url ≠ .grokmirror ∨
    ∃ fp, listed urls params net = some fp ∧ l.fingerprint ≠ some fp

theorem raced_eq_ok {r : Option (Except String RefAnswer)} {s : ObjectId} {o : PollOutcome}
    (hr : ∀ a, r = some (.ok a) → a = .refreshed s) (h : raced r = .ok o) : o = .refreshed s := by
  unfold raced at h
  split at h
  · cases h
  · cases h
  · next a =>
    obtain rfl := hr a rfl
    simpa [RefAnswer.outcome] using h.symm

theorem pollCycle_ok {s : ObjectId} {o : PollOutcome} (hk : KeepsSha s net)
    (h : (l.pollCycle urls params net).1 = .ok o) :
    (LooksUp urls params l net ∧ o = .refreshed s) ∨
      (¬ LooksUp urls params l net ∧ ∀ sha, o ≠ .refreshed sha) := by
  unfold pollCycle pollOne at h
  split at h
  · next hg =>
    refine .inl ⟨.inl (by simp [hg]), ?_⟩
    unfold pollGithubApi at h
    split at h
    · split at h
      · cases h
      · exact raced_eq_ok hk.1 h
    · cases h
  · next hg =>
    cases hl : listed urls params net with
    | none =>
      obtain ⟨r, hr, hcase⟩ := pollGrokmirror_of_unlisted l.fingerprint hl
      rw [hr] at h
      refine .inr ⟨by simp [LooksUp, hg, hl], fun sha ho => ?_⟩
      obtain rfl | ⟨e, rfl⟩ := hcase
      · subst ho
        cases h
      · cases h
    | some fp =>
      rw [pollGrokmirror_of_listed l.fingerprint hl] at h
      split at h
      · next hfp =>
        refine .inr ⟨by simp [LooksUp, hg, hl, hfp], fun sha ho => ?_⟩
        subst ho
        cases h
      · next hfp => exact .inl ⟨.inr ⟨fp, hl, hfp⟩, raced_eq_ok hk.2 h⟩
  · next hg => exact .inl ⟨.inl (by simp [hg]), raced_eq_ok hk.2 h⟩

theorem pollCycle_refreshed {s sha : ObjectId} (hk : KeepsSha s net)
    (h : (l.pollCycle urls params net).1 = .ok (.refreshed sha)) : sha = s := by
  obtain ⟨-, ho⟩ | ⟨-, ho⟩ := pollCycle_ok hk h
  · exact PollOutcome.refreshed.inj ho
  · exact absurd rfl (ho sha)

/-- The loop hands over no trigger, and remembers only `s` and only when that is no change. -/
def Quiet (s : ObjectId) (l : Loop) : Prop :=
  match l.pc with
  | .sendTrigger .. | .sendObservation .. => False
  | .sendState _ (.advance sha) => sha = s ∧ (compareSha l.lastSha s).trigger = false
  | _ => True

structure Standing (s : ObjectId) (change : Bool) (l : Loop) : Prop where
  change : (compareSha l.lastSha s).trigger = change
  quiet : Quiet s l

theorem suppressed_iff_standing {s : ObjectId} : Suppressed s l ↔ Standing s true l := by
  have hpc (hdiff : (compareSha l.lastSha s).trigger = true) : Holds l.pc ↔ Quiet s l := by
    unfold Quiet Holds
    cases l.pc with
    | sendState u next => cases next <;> simp [hdiff]
    | _ => simp
  constructor
  · rintro ⟨hdiff, hholds⟩
    exact ⟨hdiff, (hpc hdiff).mp hholds⟩
  · rintro ⟨hdiff, hquiet⟩
    exact ⟨hdiff, (hpc hdiff).mpr hquiet⟩

theorem handleOutcome_quiet {s : ObjectId} {o : PollOutcome} {fingerprint : Option String}
    (ho : ∀ sha, o = .refreshed sha → sha = s)
    (hcool : isCooledDown l.lastDispatchedAt now params.effectivePoll.cooldown = false) :
    Quiet s { l with fingerprint := fingerprint, pc := l.handleOutcome params now o } := by
  cases o with
  | refreshed sha =>
    obtain rfl := ho sha rfl
    cases hdiff : (compareSha l.lastSha sha).trigger with
    | true => simp [handleOutcome, handleRefreshed, hdiff, hcool, Quiet]
    | false =>
      simp only [handleOutcome, handleRefreshed, hdiff, Bool.false_eq_true, if_false]
      exact ⟨rfl, hdiff⟩
  | unbornRef | unchanged => trivial

theorem standing_step {s : ObjectId} {change : Bool} {e : PollEvent} (h : Standing s change l)
    (hw : Waiting urls params s l e) (hstep : l.step urls params e = some l') :
    Standing s change l' := by
  obtain ⟨hdiff, hquiet⟩ := h
  cases e with
  | wake | acquired =>
    obtain ⟨-, rfl⟩ := Transition.guard_eq_some.mp hstep
    exact ⟨hdiff, trivial⟩
  | cancelled =>
    simp only [step] at hstep
    split at hstep
    · cases hstep; exact ⟨hdiff, trivial⟩
    · obtain ⟨-, rfl⟩ := Transition.guard_eq_some.mp hstep
      exact ⟨hdiff, trivial⟩
    · cases hstep; exact ⟨hdiff, trivial⟩
    · cases hstep
  | polled net now =>
    cases hr : (l.pollCycle urls params net).1 with
    | error e =>
      obtain ⟨hsha, hpc⟩ := step_polled_error hstep hr
      refine ⟨hsha ▸ hdiff, ?_⟩
      unfold Quiet
      obtain hpc | hpc := hpc <;> rw [hpc] <;> trivial
    | ok o =>
      obtain ⟨hk, hcool | ⟨e, he⟩⟩ := hw
      · rw [step_polled_ok hstep hr]
        exact ⟨hdiff, handleOutcome_quiet (fun sha ho => pollCycle_refreshed hk (ho ▸ hr)) hcool⟩
      · rw [hr] at he
        cases he
  | triggerAccepted | triggerClosed =>
    simp only [step] at hstep
    split at hstep
    · next hpc =>
      simp only [Quiet, hpc] at hquiet
    · cases hstep
  | stateAccepted now =>
    simp only [step] at hstep
    split at hstep
    · next hpc => simp only [Quiet, hpc] at hquiet
    · next next hpc =>
      cases hstep
      cases next with
      | advance sha =>
        -- the remembered id is now `s` itself, which was no change before either
        simp only [Quiet, hpc] at hquiet
        obtain ⟨rfl, hsame⟩ := hquiet
        refine ⟨?_, trivial⟩
        rw [← hdiff, hsame]
        simp [finishArm, compareSha]
      | keep => exact ⟨by simpa [finishArm] using hdiff, trivial⟩
      | unborn => exact ⟨hdiff, trivial⟩
    · cases hstep
  | stateClosed =>
    simp only [step] at hstep
    split at hstep
    · next hpc => simp only [Quiet, hpc] at hquiet
    · cases hstep; exact ⟨hdiff, trivial⟩
    · cases hstep

/-- A successful cycle past the window, over an upstream at `s`, emits a trigger
if and only if `s` is a change and the cycle looks the ref up. -/
theorem cooled_cycle_fires_iff {s : ObjectId} {o : PollOutcome} (hkeeps : KeepsSha s net)
    (hcooled : isCooledDown l.lastDispatchedAt now params.effectivePoll.cooldown = true)
    (hok : (l.pollCycle urls params net).1 = .ok o)
    (hstep : l.step urls params (.polled net now) = some l') :
    (∃ observation, l'.pc = .sendTrigger ⟨s, now⟩ observation) ↔
      (compareSha l.lastSha s).trigger = true ∧ LooksUp urls params l net := by
  rw [step_polled_ok hstep hok]
  obtain ⟨hlooks, rfl⟩ | ⟨hlooks, ho⟩ := pollCycle_ok hkeeps hok
  · cases hdiff : (compareSha l.lastSha s).trigger with
    | true => simp [hlooks, handleOutcome, handleRefreshed, hdiff, hcooled]
    | false => simp [handleOutcome, handleRefreshed, hdiff]
  · refine iff_of_false ?_ fun h => hlooks h.2
    rintro ⟨observation, hpc⟩
    cases o with
    | refreshed sha => exact ho sha rfl
    | unbornRef => cases hpc
    | unchanged => cases hpc

/-- A cycle finds `s`, differs from the last id and is suppressed by the
cooldown; the upstream keeps `s`, and the cycles that follow fail or fall within
the window. The first successful cycle past the window emits a trigger for `s`
if and only if it looks the ref up. -/
theorem suppressed_change_fires_iff {urls : UrlCrates} {params : PollParams} {s : ObjectId}
    {l₀ l₁ l₂ l₃ : Loop} {net₀ net : Network} {now₀ now : DateTime} {events : List PollEvent}
    {o : PollOutcome}
    (hseen : (l₀.pollCycle urls params net₀).1 = .ok (.refreshed s))
    (hdiff : (compareSha l₀.lastSha s).trigger = true)
    (hcooling : isCooledDown l₀.lastDispatchedAt now₀ params.effectivePoll.cooldown = false)
    (hsuppress : l₀.step urls params (.polled net₀ now₀) = some l₁)
    (hwaiting : Transition.Along (step urls params) (Waiting urls params s) l₁ events)
    (hrun : Transition.run (step urls params) l₁ events = some l₂)
    (hkeeps : KeepsSha s net)
    (hcooled : isCooledDown l₂.lastDispatchedAt now params.effectivePoll.cooldown = true)
    (hok : (l₂.pollCycle urls params net).1 = .ok o)
    (hstep : l₂.step urls params (.polled net now) = some l₃) :
    (∃ observation, l₃.pc = .sendTrigger ⟨s, now⟩ observation) ↔ LooksUp urls params l₂ net := by
  have hstart : Suppressed s l₁ := by
    rw [step_polled_ok hsuppress hseen, suppressed_iff_standing]
    exact ⟨hdiff, handleOutcome_quiet (fun _ h => (PollOutcome.refreshed.inj h).symm) hcooling⟩
  have hend : Standing s true l₂ := Transition.invariant_along
    (fun _ _ _ h hw hs => standing_step h hw hs) (suppressed_iff_standing.mp hstart) hwaiting hrun
  rw [cooled_cycle_fires_iff hkeeps hcooled hok hstep, hend.change]
  simp

def cooling : Loop :=
  { start (some (.repeated 10)) (some 0) ∅ with pc := .polling }

theorem suppressed_change_fires_after_manifest_moves :
    ∃ l₁ l₂ l₃ observation,
      cooling.step kernelOrgCrates kernelOrgParams
        (.polled (manifestCycle "aa" (.ok (.refreshed (.repeated 11)))) (seconds 10)) = some l₁ ∧
      Transition.run (step kernelOrgCrates kernelOrgParams) l₁
        [.stateAccepted (seconds 10), .wake, .acquired] = some l₂ ∧
      l₂.step kernelOrgCrates kernelOrgParams
        (.polled (manifestCycle "ab" (.ok (.refreshed (.repeated 11)))) (seconds 4000)) = some l₃ ∧
      l₃.pc = .sendTrigger ⟨.repeated 11, seconds 4000⟩ observation := by
  have h := (@suppressed_change_fires_iff kernelOrgCrates kernelOrgParams (.repeated 11) cooling
    _ _ _ (manifestCycle "aa" (.ok (.refreshed (.repeated 11))))
    (manifestCycle "ab" (.ok (.refreshed (.repeated 11)))) (seconds 10) (seconds 4000)
    [.stateAccepted (seconds 10), .wake, .acquired] (.refreshed (.repeated 11))
    (by decide) (by decide) (by decide) rfl ⟨trivial, trivial, trivial, trivial⟩ rfl
    ⟨by simp [manifestCycle], by simp [manifestCycle]⟩ (by decide) (by decide) rfl).mpr
    (.inr ⟨"ab", by decide, by decide⟩)
  obtain ⟨observation, hpc⟩ := h
  exact ⟨_, _, _, observation, rfl, rfl, rfl, hpc⟩

/-- The manifest is the one the suppressed cycle already cached: the successful
cycle past the window reports no change and emits nothing. -/
theorem suppressed_change_is_not_fired :
    ∃ l₁ l₂ l₃,
      (cooling.pollCycle kernelOrgCrates kernelOrgParams
        (manifestCycle "aa" (.ok (.refreshed (.repeated 11))))).1 = .ok (.refreshed (.repeated 11)) ∧
      (compareSha cooling.lastSha (.repeated 11)).trigger = true ∧
      isCooledDown cooling.lastDispatchedAt (seconds 10) kernelOrgParams.effectivePoll.cooldown =
        false ∧
      cooling.step kernelOrgCrates kernelOrgParams
        (.polled (manifestCycle "aa" (.ok (.refreshed (.repeated 11)))) (seconds 10)) = some l₁ ∧
      Transition.run (step kernelOrgCrates kernelOrgParams) l₁
        [.stateAccepted (seconds 10), .wake, .acquired] = some l₂ ∧
      KeepsSha (.repeated 11) (manifestCycle "aa" (.ok (.refreshed (.repeated 11)))) ∧
      isCooledDown l₂.lastDispatchedAt (seconds 4000) kernelOrgParams.effectivePoll.cooldown = true ∧
      (l₂.pollCycle kernelOrgCrates kernelOrgParams
        (manifestCycle "aa" (.ok (.refreshed (.repeated 11))))).1 = .ok .unchanged ∧
      l₂.step kernelOrgCrates kernelOrgParams
        (.polled (manifestCycle "aa" (.ok (.refreshed (.repeated 11)))) (seconds 4000)) = some l₃ ∧
      ¬ ∃ signal observation, l₃.pc = .sendTrigger signal observation := by
  refine ⟨_, _, _, by decide, by decide, by decide, rfl, rfl, ⟨by simp [manifestCycle], by
    simp [manifestCycle]⟩, by decide, by decide, rfl, ?_⟩
  rintro ⟨signal, observation, hpc⟩
  cases hpc

end Loop

end Gcit.Poll
