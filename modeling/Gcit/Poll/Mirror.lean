import Gcit.Git.Grokmirror

/-! # Polls of a mirror

The fast path over the connection: in each cycle the mirror sends its manifest, or
something else, and the cycle looks its repository up in what arrived. The fingerprint
that is carried along is the one that the mirror gave last.
-/

namespace Gcit.Poll

open Std Gcit.Git Gcit.Git.Grokmirror Gcit.Library Gcit.Library.Trace Gcit.Library.CappedRead

/-- What a cycle meets. Without an exchange it is cancelled before the manifest is there. -/
structure MirrorPoll where
  exchange : Option Exchange
  lsRemote : Option (Except String RefAnswer)

variable (crates : MirrorCrates) (urls : UrlCrates) (params : PollParams) (base key : String)

def MirrorPoll.network (p : MirrorPoll) : Network where
  githubApi := none
  manifest := p.exchange.map (Grokmirror.fetchManifest crates base)
  lsRemote := p.lsRemote

/-- The flow polls a repository of this mirror. -/
structure Mirrors : Prop where
  reqwest : params.reqwest = true
  base : baseUrl urls params.url = some base
  key : extractRepoPathFromUrl urls params.url = .ok key

def MirrorPoll.Delivers (p : MirrorPoll) (manifest : Manifest) : Prop :=
  ∃ x body d, p.exchange = some x ∧ x.Arrives body ∧ Unpacks crates body d ∧ Lists d manifest

def MirrorPoll.Reports (p : MirrorPoll) (fp : String) : Prop :=
  ∃ manifest entry, p.Delivers crates manifest ∧ manifest[key]? = some entry ∧
    entry.fingerprint = fp

def LastReported (past : List MirrorPoll) (fp : String) : Prop :=
  ∃ before p after, past = before ++ p :: after ∧ p.Reports crates key fp ∧
    ∀ q ∈ after, ∀ other, ¬q.Reports crates key other

/-- A cycle with these before it. -/
structure MirrorCycle (past : List MirrorPoll) (p : MirrorPoll) (c : Cycle) : Prop where
  cached : ∀ fp, c.before = some fp ↔ LastReported crates key past fp
  unchanged : c.result = .ok .unchanged ↔
    ∃ fp, p.Reports crates key fp ∧ LastReported crates key past fp
  changed : ∀ fp, p.Reports crates key fp → ¬LastReported crates key past fp →
    c.result = raced p.lsRemote ∧ c.after = some fp
  unlisted : ∀ manifest, p.Delivers crates manifest → manifest[key]? = none →
    c.result = .ok .unbornRef ∧ c.after = c.before
  undelivered : (∀ manifest, ¬p.Delivers crates manifest) →
    (∃ e, c.result = .error e) ∧ c.after = c.before

variable {crates urls params base key}

variable (crates) in
theorem fetchManifest_network (h : Mirrors urls params base key) (p : MirrorPoll) :
    (∃ manifest, p.Delivers crates manifest ∧
      fetchManifest urls params (p.network crates base) = .ok (manifest, key)) ∨
    ((∀ manifest, ¬p.Delivers crates manifest) ∧
      ∃ e, fetchManifest urls params (p.network crates base) = .error e) := by
  obtain ⟨hreqwest, hbase, hkey⟩ := h
  simp only [fetchManifest, if_pos hreqwest, hbase, hkey, MirrorPoll.network]
  cases hexchange : p.exchange with
  | none =>
    refine .inr ⟨?_, .cancelled, rfl⟩
    rintro manifest ⟨x, body, d, hx, -⟩
    cases hexchange.symm.trans hx
  | some x =>
    cases hfetch : Grokmirror.fetchManifest crates base x with
    | ok manifest =>
      obtain ⟨body, d, harrives, hunpacks, hlists⟩ := fetchManifest_eq_ok.mp hfetch
      exact .inl ⟨manifest, ⟨x, body, d, hexchange, harrives, hunpacks, hlists⟩, by simp [hfetch]⟩
    | error e =>
      refine .inr ⟨?_, .failed e.display, by simp [hfetch]⟩
      rintro manifest ⟨y, body, d, hy, harrives, hunpacks, hlists⟩
      obtain rfl := Option.some.inj (hexchange.symm.trans hy)
      cases hfetch.symm.trans (fetchManifest_eq_ok.mpr ⟨body, d, harrives, hunpacks, hlists⟩)

theorem delivers_unique {p : MirrorPoll} {m n : Manifest} (hm : p.Delivers crates m)
    (hn : p.Delivers crates n) : m = n := by
  obtain ⟨x, body, d, hx, hm⟩ := hm
  obtain ⟨y, body', d', hy, hn⟩ := hn
  obtain rfl := Option.some.inj (hx.symm.trans hy)
  have hm : Grokmirror.fetchManifest crates "" x = .ok m := fetchManifest_eq_ok.mpr ⟨body, d, hm⟩
  have hn : Grokmirror.fetchManifest crates "" x = .ok n := fetchManifest_eq_ok.mpr ⟨body', d', hn⟩
  exact Except.ok.inj (hm.symm.trans hn)

variable (crates) in
theorem listed_network (h : Mirrors urls params base key) (p : MirrorPoll) {fp : String} :
    listed urls params (p.network crates base) = some fp ↔ p.Reports crates key fp := by
  obtain ⟨manifest, hdelivers, hfetch⟩ | ⟨hnone, e, hfetch⟩ :=
    fetchManifest_network crates h p
  · rw [listed, hfetch]
    simp only [lookupFingerprint]
    constructor
    · intro hlisted
      split at hlisted
      · next entry hentry => exact ⟨manifest, entry, hdelivers, hentry, Option.some.inj hlisted⟩
      · cases hlisted
    · rintro ⟨other, entry, hother, hentry, rfl⟩
      obtain rfl := delivers_unique hother hdelivers
      simp only [hentry, Except.toOption]
  · rw [listed, hfetch]
    refine iff_of_false (by simp) ?_
    rintro ⟨manifest, -, hdelivers, -⟩
    exact hnone manifest hdelivers

theorem cycles_append (fp : Option String) (before after : List Network) :
    cycles urls params fp (before ++ after) = cycles urls params fp before ++
      cycles urls params (before.foldl (fun fp net => (pollOne urls .grokmirror params fp net).2) fp)
        after := by
  induction before generalizing fp with
  | nil => rfl
  | cons net before ih => exact congrArg (_ :: ·) (ih _)

theorem length_cycles (fp : Option String) (nets : List Network) :
    (cycles urls params fp nets).length = nets.length := by
  induction nets generalizing fp with
  | nil => rfl
  | cons net nets ih => exact congrArg (· + 1) (ih _)

theorem after_pollOne (fp : Option String) (net : Network) :
    (pollOne urls .grokmirror params fp net).2 = (listed urls params net).or fp := by
  obtain ⟨new, hl, rfl, hp⟩ | ⟨new, hl, -, hp⟩ | ⟨hl, r, -, hp⟩ := cycle_cases urls params fp net <;>
    simp [hl, hp]

/-- What is cached is the fingerprint that was listed last. -/
theorem foldl_pollOne (nets : List Network) :
    nets.foldl (fun fp net => (pollOne urls .grokmirror params fp net).2) none =
      latest (listed urls params) nets := by
  induction nets using List.reverseRecOn with
  | nil => rfl
  | append_singleton nets net ih =>
    rw [List.foldl_append, ih, List.foldl_cons, List.foldl_nil, after_pollOne, latest_concat]

theorem latest_network (h : Mirrors urls params base key) (past : List MirrorPoll) {fp : String} :
    latest (listed urls params) (past.map (MirrorPoll.network crates base)) = some fp ↔
      LastReported crates key past fp := by
  have hmap : latest (listed urls params) (past.map (MirrorPoll.network crates base)) =
      latest (fun p => listed urls params (MirrorPoll.network crates base p)) past := by
    rw [latest, latest, ← List.map_reverse, List.findSome?_map]
    rfl
  rw [hmap, latest_eq_some]
  simp only [listed_network crates h, LastReported, Option.eq_none_iff_forall_not_mem,
    Option.mem_def]

theorem mirrorCycle (h : Mirrors urls params base key) {past : List MirrorPoll} {p : MirrorPoll}
    {fp : Option String} (hfp : ∀ f, fp = some f ↔ LastReported crates key past f) :
    MirrorCycle crates key past p ⟨fp, p.network crates base,
      (pollOne urls .grokmirror params fp (p.network crates base)).1,
      (pollOne urls .grokmirror params fp (p.network crates base)).2⟩ := by
  have hlisted {f : String} :
      listed urls params (p.network crates base) = some f ↔ p.Reports crates key f :=
    listed_network crates h p
  refine ⟨hfp, ⟨?_, ?_⟩, ?_, ?_, ?_⟩
  · intro hunchanged
    obtain ⟨new, hl, rfl, -⟩ | ⟨new, -, -, hp⟩ | ⟨-, r, hne, hp⟩ :=
      cycle_cases urls params fp (p.network crates base)
    · exact ⟨new, hlisted.mp hl, (hfp new).mp rfl⟩
    · rw [hp] at hunchanged
      exact absurd hunchanged (lsRemoteInline_ne_unchanged _)
    · rw [hp] at hunchanged
      exact absurd hunchanged hne
  · rintro ⟨f, hreports, hlast⟩
    have hpoll := pollGrokmirror_of_listed fp (hlisted.mpr hreports)
    rw [if_pos ((hfp f).mpr hlast)] at hpoll
    exact congrArg Prod.fst hpoll
  · intro f hreports hnot
    have hne : fp ≠ some f := fun heq => hnot ((hfp f).mp heq)
    have hpoll := pollGrokmirror_of_listed fp (hlisted.mpr hreports)
    rw [if_neg hne] at hpoll
    exact ⟨congrArg Prod.fst hpoll, congrArg Prod.snd hpoll⟩
  · intro manifest hdelivers hmissing
    obtain ⟨other, hother, hfetch⟩ | ⟨hnone, -⟩ := fetchManifest_network crates h p
    · obtain rfl := delivers_unique hdelivers hother
      have hpoll : pollGrokmirror urls params fp (p.network crates base) = (.ok .unbornRef, fp) := by
        simp only [pollGrokmirror, hfetch, lookupFingerprint, hmissing]
      exact ⟨congrArg Prod.fst hpoll, congrArg Prod.snd hpoll⟩
    · exact absurd hdelivers (hnone manifest)
  · intro hnone
    obtain ⟨manifest, hdelivers, -⟩ | ⟨-, e, hfetch⟩ := fetchManifest_network crates h p
    · exact absurd hdelivers (hnone manifest)
    · have hpoll : pollGrokmirror urls params fp (p.network crates base) = (.error e, fp) := by
        simp only [pollGrokmirror, hfetch]
      exact ⟨⟨e, congrArg Prod.fst hpoll⟩, congrArg Prod.snd hpoll⟩

/-- In every run of polls of a mirror, whatever it sends in each: a cycle reports no change
exactly if the manifest that arrived gives the fingerprint of the repository that the last
one with that repository gave, and one entry that is none, of whatever repository, fails it. -/
theorem mirror_polled (crates : MirrorCrates) (h : Mirrors urls params base key)
    (past : List MirrorPoll) (p : MirrorPoll) (future : List MirrorPoll) :
    ∃ c, (cycles urls params none ((past ++ p :: future).map (MirrorPoll.network crates base)))[
        past.length]? = some c ∧ MirrorCycle crates key past p c := by
  refine ⟨_, ?_, mirrorCycle h fun f => latest_network h past⟩
  have hlength : (cycles urls params none
      (past.map (MirrorPoll.network crates base))).length = past.length := by
    rw [length_cycles, List.length_map]
  rw [List.map_append, cycles_append, List.getElem?_append_right hlength.le, hlength, Nat.sub_self,
    foldl_pollOne]
  rfl

section Kernel

def kernelText : List UInt8 :=
  [123, 34, 47, 112, 117, 98, 47, 115, 99, 109, 47, 108, 105, 110, 117, 120, 46, 103, 105, 116, 34,
    58, 123, 34, 102, 105, 110, 103, 101, 114, 112, 114, 105, 110, 116, 34, 58, 34, 97, 97, 34, 125,
    125]

def kernelBody : List UInt8 :=
  [31, 139, 8, 0, 0, 0, 0, 0, 2, 3, 171, 86, 210, 47, 40, 77, 210, 47, 78, 206, 213, 207, 201, 204,
    43, 173, 208, 75, 207, 44, 81, 178, 170, 86, 74, 203, 204, 75, 79, 45, 42, 40, 202, 204, 3, 114,
    149, 18, 19, 149, 106, 107, 1, 9, 158, 99, 58, 43, 0, 0, 0]

def kernelEntry : Document := .object [("fingerprint", .string "aa")]

def kernelDocument : Document := .object [("/pub/scm/linux.git", kernelEntry)]

def kernelMirror : MirrorCrates where
  canonicalReason status := if status = 200 then some "OK" else none
  gzDecoder body :=
    if body = kernelBody then ⟨kernelText, none⟩ else ⟨[], some "invalid gzip header"⟩
  parse text := if text = kernelText then .ok kernelDocument else .error "expected value"
  shapeError _ := "invalid type"

/-- The body comes in two pieces. -/
def kernelPoll (cut : Nat) (lsRemote : Except String RefAnswer) : MirrorPoll where
  exchange := some ⟨(0, .ok ⟨200, none⟩),
    [(seconds 1, .chunk (kernelBody.take cut)), (seconds 2, .chunk (kernelBody.drop cut)),
      (seconds 2, .ended)]⟩
  lsRemote := some lsRemote

theorem kernelPoll_reports (cut : Nat) (lsRemote : Except String RefAnswer) :
    (kernelPoll cut lsRemote).Reports kernelMirror "/pub/scm/linux.git" "aa" := by
  obtain ⟨manifest, hmanifest⟩ : ∃ manifest, Lists kernelDocument manifest := by
    obtain ⟨m, hm⟩ : ∃ m, readManifest kernelDocument = some m := ⟨_, rfl⟩
    exact ⟨m, readManifest_eq_some.mp hm⟩
  have hsays : Says kernelEntry ⟨"aa", none⟩ := .undated rfl (.inl rfl)
  refine ⟨manifest, ⟨"aa", none⟩, ⟨_, kernelBody, kernelDocument, rfl, ?_, ?_, hmanifest⟩, ?_, rfl⟩
  · refine ⟨⟨Nat.zero_le _, _, rfl, rfl, by simp⟩,
      ⟨[kernelBody.take cut, kernelBody.drop cut], [], ?_, ?_⟩, ?_⟩
    · rfl
    · simp
    · decide
  · exact ⟨rfl, by decide, rfl⟩
  · obtain ⟨members, heq, -, hlookup⟩ := hmanifest
    cases heq
    exact (hlookup _ _).mpr ⟨[], kernelEntry, [], rfl, List.forall_mem_nil _, hsays⟩

/-- The same manifest twice, cut up in two ways. -/
theorem kernel_mirror_unchanged : ∃ c,
    (cycles kernelOrgCrates kernelOrgParams none
      ([kernelPoll 10 (.ok .unbornRef), kernelPoll 60 (.ok .unbornRef)].map
        (MirrorPoll.network kernelMirror "https://git.kernel.org")))[1]? = some c ∧
      c.result = .ok .unchanged := by
  have hmirrors : Mirrors kernelOrgCrates kernelOrgParams "https://git.kernel.org"
      "/pub/scm/linux.git" := ⟨rfl, by decide, by decide⟩
  obtain ⟨c, hc, hcycle⟩ :=
    mirror_polled kernelMirror hmirrors [kernelPoll 10 (.ok .unbornRef)]
      (kernelPoll 60 (.ok .unbornRef)) []
  refine ⟨c, hc, hcycle.unchanged.mpr ⟨"aa", kernelPoll_reports _ _, ?_⟩⟩
  exact ⟨[], _, [], rfl, kernelPoll_reports _ _, List.forall_mem_nil _⟩

end Kernel

end Gcit.Poll
