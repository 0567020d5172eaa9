import Gcit.Library.Trace
import Gcit.Poll.Executor

/-! # The grokmirror fast path and ls-remote

The fingerprint is cached before the ref is resolved. A cycle that resolves
the ref and fails has therefore already consumed the change, and the next cycle
with the same manifest reports that nothing changed. The fast path agrees with
ls-remote exactly in the histories without such a cycle.
-/

namespace Gcit.Poll

open Std Gcit.Git Gcit.Library.Trace

/-- One cycle as the executor ran it, with the cache before and after. -/
structure Cycle where
  before : Option String
  net : Network
  result : Except PollCycleError PollOutcome
  after : Option String

def cycles (urls : UrlCrates) (params : PollParams) : Option String → List Network → List Cycle
  | _, [] => []
  | fp, net :: nets =>
    let r := pollOne urls .grokmirror params fp net
    ⟨fp, net, r.1, r.2⟩ :: cycles urls params r.2 nets

/-- The new fingerprint under which a cycle goes on to issue ls-remote. -/
def issuedUnder (urls : UrlCrates) (params : PollParams) (c : Cycle) : Option String :=
  (listed urls params c.net).filter fun fp => c.before ≠ some fp

def Cycle.Answered (c : Cycle) : Prop := ∃ a, c.net.lsRemote = some (.ok a) ∧ c.result = .ok a.outcome

def lastIssued (urls : UrlCrates) (params : PollParams) (fp : String) (cs : List Cycle) :
    Option Cycle :=
  latest (fun c => if issuedUnder urls params c = some fp then some c else none) cs

/-- Nothing is reported unchanged unless the last ls-remote under the cached
fingerprint was answered, and a cycle that fails with the manifest in hand
leaves the cache as it was. -/
def AgreesWithLsRemote (urls : UrlCrates) (params : PollParams) (cs : List Cycle) : Prop :=
  ∀ past c future, cs = past ++ c :: future →
    (c.result = .ok .unchanged → ∃ fp d, c.before = some fp ∧ c.after = some fp ∧
      lastIssued urls params fp past = some d ∧ d.Answered) ∧
    (∀ e m, c.result = .error e → fetchManifest urls params c.net = .ok m → c.after = c.before)

variable {urls : UrlCrates} {params : PollParams}

theorem issuedUnder_eq_some {c : Cycle} {fp : String} :
    issuedUnder urls params c = some fp ↔
      listed urls params c.net = some fp ∧ c.before ≠ some fp := by
  simp [issuedUnder, Option.filter_eq_some_iff]

theorem cycle_cases (urls : UrlCrates) (params : PollParams) (fp : Option String) (net : Network) :
    (∃ new, listed urls params net = some new ∧ fp = some new ∧
      pollOne urls .grokmirror params fp net = (.ok .unchanged, fp)) ∨
    (∃ new, listed urls params net = some new ∧ fp ≠ some new ∧
      pollOne urls .grokmirror params fp net = (lsRemoteInline net, some new)) ∨
    (listed urls params net = none ∧ ∃ r, r ≠ .ok .unchanged ∧
      pollOne urls .grokmirror params fp net = (r, fp)) := by
  cases hl : listed urls params net with
  | none =>
    obtain ⟨r, hr, hcase⟩ := pollGrokmirror_of_unlisted fp hl
    refine .inr (.inr ⟨rfl, r, ?_, hr⟩)
    rintro rfl
    simp at hcase
  | some new =>
    have hpoll := pollGrokmirror_of_listed fp hl
    by_cases hfp : fp = some new
    · exact .inl ⟨new, rfl, hfp, by simpa [pollOne, hfp] using hpoll⟩
    · exact .inr (.inl ⟨new, rfl, hfp, by simpa [pollOne, hfp] using hpoll⟩)

theorem lsRemoteInline_ne_unchanged (net : Network) : lsRemoteInline net ≠ .ok .unchanged := by
  unfold lsRemoteInline raced
  split
  · simp
  · simp
  · next a _ => cases a <;> simp [RefAnswer.outcome]

theorem lsRemoteInline_eq_ok {net : Network} {o : PollOutcome} (h : lsRemoteInline net = .ok o) :
    ∃ a, net.lsRemote = some (.ok a) ∧ o = a.outcome := by
  unfold lsRemoteInline raced at h
  split at h
  · cases h
  · cases h
  · next a ha => exact ⟨a, ha, by simpa using h.symm⟩

theorem lastIssued_concat (fp : String) (cs : List Cycle) (c : Cycle) :
    lastIssued urls params fp (cs ++ [c]) =
      if issuedUnder urls params c = some fp then some c else lastIssued urls params fp cs := by
  rw [lastIssued, latest_concat]
  split
  · rfl
  · rfl

/-- Whatever is cached was cached by a cycle whose ls-remote was answered. -/
def CacheBacked (urls : UrlCrates) (params : PollParams) (past : List Cycle) (fp : Option String) :
    Prop :=
  ∀ f, fp = some f → ∃ d, lastIssued urls params f past = some d ∧ d.Answered

theorem cacheBacked_cycle {past : List Cycle} {fp : Option String} {net : Network}
    (h : CacheBacked urls params past fp)
    (hnet : ∀ new, listed urls params net = some new → fp ≠ some new →
      ∃ a, net.lsRemote = some (.ok a)) :
    CacheBacked urls params
      (past ++ [⟨fp, net, (pollOne urls .grokmirror params fp net).1,
        (pollOne urls .grokmirror params fp net).2⟩])
      (pollOne urls .grokmirror params fp net).2 := by
  intro f hf
  rw [lastIssued_concat]
  obtain ⟨new, hl, rfl, hp⟩ | ⟨new, hl, hne, hp⟩ | ⟨hl, r, -, hp⟩ :=
    cycle_cases urls params fp net
  · have hissued : ¬ issuedUnder urls params ⟨some new, net, .ok .unchanged, some new⟩ = some f := by
      rw [issuedUnder_eq_some]
      simp [hl]
    rw [hp] at hf ⊢
    rw [if_neg hissued]
    exact h f hf
  · obtain ⟨a, ha⟩ := hnet new hl hne
    rw [hp] at hf ⊢
    obtain rfl : new = f := by simpa using hf
    rw [if_pos (issuedUnder_eq_some.mpr ⟨hl, hne⟩)]
    exact ⟨_, rfl, a, ha, by simp [lsRemoteInline, raced, ha]⟩
  · have hissued : ¬ issuedUnder urls params ⟨fp, net, r, fp⟩ = some f := by
      rw [issuedUnder_eq_some]
      simp [hl]
    rw [hp] at hf ⊢
    rw [if_neg hissued]
    exact h f hf

theorem unchanged_backed {past : List Cycle} {fp : Option String} {net : Network}
    (h : CacheBacked urls params past fp)
    (hr : (pollOne urls .grokmirror params fp net).1 = .ok .unchanged) :
    ∃ f d, fp = some f ∧ (pollOne urls .grokmirror params fp net).2 = some f ∧
      lastIssued urls params f past = some d ∧ d.Answered := by
  obtain ⟨new, hl, rfl, hp⟩ | ⟨new, hl, hne, hp⟩ | ⟨hl, r, hne, hp⟩ :=
    cycle_cases urls params fp net
  · obtain ⟨d, hd, hans⟩ := h new rfl
    exact ⟨new, d, rfl, by rw [hp], hd, hans⟩
  · rw [hp] at hr
    exact absurd hr (lsRemoteInline_ne_unchanged net)
  · rw [hp] at hr
    exact absurd hr hne

theorem failed_keeps_cache {fp : Option String} {net : Network} {e : PollCycleError}
    (hnet : ∀ new, listed urls params net = some new → fp ≠ some new →
      ∃ a, net.lsRemote = some (.ok a))
    (hr : (pollOne urls .grokmirror params fp net).1 = .error e) :
    (pollOne urls .grokmirror params fp net).2 = fp := by
  obtain ⟨new, hl, rfl, hp⟩ | ⟨new, hl, hne, hp⟩ | ⟨hl, r, hne, hp⟩ :=
    cycle_cases urls params fp net
  · rw [hp]
  · obtain ⟨a, ha⟩ := hnet new hl hne
    rw [hp] at hr
    simp [lsRemoteInline, raced, ha] at hr
  · rw [hp]

/-- No cycle takes a new fingerprint and then fails to resolve the ref. -/
def ResolvesEveryChange (urls : UrlCrates) (params : PollParams) (cs : List Cycle) : Prop :=
  ∀ c ∈ cs, ∀ fp, issuedUnder urls params c = some fp → ∃ a, c.net.lsRemote = some (.ok a)

theorem agrees_of_backed (nets : List Network) (past : List Cycle) {fp : Option String}
    (h : CacheBacked urls params past fp)
    (hok : ResolvesEveryChange urls params (cycles urls params fp nets)) :
    ∀ before c after, cycles urls params fp nets = before ++ c :: after →
      (c.result = .ok .unchanged → ∃ f d, c.before = some f ∧ c.after = some f ∧
        lastIssued urls params f (past ++ before) = some d ∧ d.Answered) ∧
      (∀ e m, c.result = .error e → fetchManifest urls params c.net = .ok m →
        c.after = c.before) := by
  induction nets generalizing past fp with
  | nil => intro before c after hsplit; simp [cycles] at hsplit
  | cons net nets ih =>
    obtain ⟨hhead, htail⟩ := List.forall_mem_cons.mp hok
    have hnet : ∀ new, listed urls params net = some new → fp ≠ some new →
        ∃ a, net.lsRemote = some (.ok a) :=
      fun new hl hne => hhead new (issuedUnder_eq_some.mpr ⟨hl, hne⟩)
    intro before c after hsplit
    cases before with
    | nil =>
      obtain ⟨rfl, -⟩ := List.cons.inj hsplit
      rw [List.append_nil]
      exact ⟨fun hr => unchanged_backed h hr, fun e m hr _ => failed_keeps_cache hnet hr⟩
    | cons b before =>
      obtain ⟨rfl, hrest⟩ := List.cons.inj hsplit
      have hnext := ih _ (cacheBacked_cycle h hnet) htail before c after hrest
      rwa [List.append_assoc] at hnext

theorem mem_cycles {nets : List Network} {fp : Option String} {c : Cycle}
    (h : c ∈ cycles urls params fp nets) :
    (c.result, c.after) = pollOne urls .grokmirror params c.before c.net := by
  induction nets generalizing fp with
  | nil => cases h
  | cons net nets ih =>
    obtain rfl | h := List.mem_cons.mp h
    · rfl
    · exact ih h

theorem fetchManifest_of_listed {net : Network} {fp : String}
    (h : listed urls params net = some fp) : ∃ m, fetchManifest urls params net = .ok m := by
  unfold listed at h
  split at h
  · cases h
  · next hm => exact ⟨_, hm⟩

/-- For every sequence of manifest and ls-remote answers fed to one executor:
the fast path agrees with ls-remote if and only if no cycle that finds a
fingerprint other than the cached one has its ls-remote fail or cancelled. -/
theorem agrees_iff_resolves (urls : UrlCrates) (params : PollParams) (nets : List Network) :
    AgreesWithLsRemote urls params (cycles urls params none nets) ↔
      ResolvesEveryChange urls params (cycles urls params none nets) := by
  constructor
  · intro h c hc fp hissued
    obtain ⟨past, future, hsplit⟩ := List.append_of_mem hc
    have hkeeps := (h past c future hsplit).2
    obtain ⟨hl, hne⟩ := issuedUnder_eq_some.mp hissued
    obtain ⟨m, hm⟩ := fetchManifest_of_listed hl
    have hpoll := mem_cycles hc
    rw [pollOne, pollGrokmirror_of_listed c.before hl, if_neg hne, Prod.mk.injEq] at hpoll
    cases hls : lsRemoteInline c.net with
    | ok o =>
      obtain ⟨a, ha, -⟩ := lsRemoteInline_eq_ok hls
      exact ⟨a, ha⟩
    | error e =>
      have hafter := hkeeps e m (hpoll.1.trans hls) hm
      exact absurd (hafter.symm.trans hpoll.2) hne
  · intro h past c future hsplit
    exact agrees_of_backed nets [] (fun f hf => by cases hf) h past c future hsplit

def kernelOrgCrates : UrlCrates where
  urlParse url :=
    if url = "https://git.kernel.org/pub/scm/linux.git" then
      .ok ⟨"https", some "git.kernel.org", some ["pub", "scm", "linux.git"]⟩
    else .error "relative URL without a base"
  gixUrlParse url :=
    if url = "https://git.kernel.org/pub/scm/linux.git" then
      .ok ⟨some "git.kernel.org", "/pub/scm/linux.git"⟩
    else .error "not a URL"
  strDebug s := "\"" ++ s ++ "\""

def kernelOrgParams : PollParams where
  flowName := "linux"
  url := "https://git.kernel.org/pub/scm/linux.git"
  refName := "refs/heads/master"
  effectivePoll := ⟨seconds 60, seconds 30, 0, seconds 3600⟩
  rateBucket := false
  octo := false
  reqwest := true

def manifestCycle (fp : String) (answer : Except String RefAnswer) : Network where
  githubApi := none
  manifest := some (.ok ((∅ : Manifest).insert "/pub/scm/linux.git" ⟨fp, none⟩))
  lsRemote := some answer

/-- ls-remote fails once, then the same manifest is served: the second cycle reports no change. -/
theorem fast_path_hides_failed_ls_remote :
    let cs := cycles kernelOrgCrates kernelOrgParams none
      [manifestCycle "aa" (.error "transport"), manifestCycle "aa" (.error "transport")]
    cs.map Cycle.result = [.error (.failed "transport"), .ok .unchanged] ∧
      ¬ AgreesWithLsRemote kernelOrgCrates kernelOrgParams cs := by
  refine ⟨by decide, fun h => ?_⟩
  have hkeeps := (h [] _ _ rfl).2 (.failed "transport") _ rfl rfl
  revert hkeeps
  decide

end Gcit.Poll
