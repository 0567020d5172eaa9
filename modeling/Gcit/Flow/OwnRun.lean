import Gcit.Flow.HandleTrigger
import Gcit.Flow.Retries
import Gcit.Github.Markers

/-! # Finding the own run without a marker

When no name carries a marker, a trigger's run is the newest that GitHub lists for
a commit. The commit asked for is the one the poll loop saw at the source; the run
is on the commit that the action's ref points to in the action's repository.
-/

namespace Gcit.Flow

open Std Gcit Gcit.Git Gcit.Poll Gcit.Library Gcit.Github

def listed (branch : String) (headSha : Option String) (run : Run) : Bool :=
  run.event == "workflow_dispatch" && (branch == "" || run.headBranch == branch) &&
    match headSha with
    | none => true
    | some sha => run.headSha == sha

/-- A server that pages through the runs, a hundred at a time. -/
def pages (runs : List Run) : Server := fun number _ =>
  .ok ⟨(runs.drop (100 * number)).take 100,
    if 100 * (number + 1) < runs.length then some "next" else none⟩

/-- One cycle, with the runs of the workflow that GitHub has at its two scans. -/
structure Listing where
  cancelled : Bool
  onset : DateTime
  now : DateTime
  cancelledAtTimeout : Bool
  first : List Run
  second : List Run

namespace Listing

def cycle (branch headSha : String) (l : Listing) : CorrelateCycle where
  cancelled := l.cancelled
  onset := l.onset
  now := l.now
  cancelledAtTimeout := l.cancelledAtTimeout
  names := pages (l.first.filter (listed branch none))
  fallback := pages (l.second.filter (listed branch (some headSha)))

/-- The runs of the commit that the five pages of a scan show. -/
def ofCommit (branch headSha : String) (l : Listing) : List Run :=
  (l.second.filter (listed branch (some headSha))).take (100 * MAX_PAGES_PER_POLL)

def HasRecent (branch headSha : String) (cutoff : DateTime) (l : Listing) : Bool :=
  (l.ofCommit branch headSha).any fun run => decide (cutoff ≤ run.createdAt)

end Listing

theorem walkPages_pages (runs : List Run) (budget number : Nat) (uri : String) :
    walkPages (pages runs) budget number uri =
      .ok ((runs.drop (100 * number)).take (100 * budget)) := by
  induction budget generalizing number uri with
  | zero => simp [walkPages]
  | succ budget ih =>
    have hsplit : 100 * (budget + 1) = 100 + 100 * budget := by omega
    by_cases hmore : 100 * (number + 1) < runs.length
    · simp only [walkPages, pages, if_pos hmore]
      rw [ih (number + 1) "next", Except.map, hsplit, List.take_add, List.drop_drop, Nat.mul_add]
    · simp only [walkPages, pages, if_neg hmore]
      have hlen : (runs.drop (100 * number)).length ≤ 100 := by
        rw [List.length_drop]
        omega
      rw [List.take_of_length_le hlen, List.take_of_length_le (by omega)]

section Correlation

variable {http : HttpCrate} {p : CorrelateParams} {namesUri commitUri : String}

theorem listRuns_pages {headSha : Option String} {uri : String}
    (huri : listRunsUri http p headSha = .ok uri) (runs : List Run) :
    listRuns http p headSha (pages runs) = .ok (runs.take (100 * MAX_PAGES_PER_POLL)) := by
  simp only [listRuns, huri]
  exact walkPages_pages runs MAX_PAGES_PER_POLL 0 uri

theorem scanCycle_listing {l : Listing} (hnames : listRunsUri http p none = .ok namesUri)
    (hcommit : listRunsUri http p (some p.headSha) = .ok commitUri)
    (hconf : p.runNameConfigured = none)
    (hunnamed : ∀ run ∈ l.first, listed p.branch none run = true → carriesOwn p run = false) :
    scanCycle http p (l.cycle p.branch p.headSha) =
      ((l.ofCommit p.branch p.headSha).foldl (newer (cutoff p)) none).map .ok := by
  have hnone : scanNameMatch http p (l.cycle p.branch p.headSha).names = .ok none := by
    refine scanNameMatch_eq_none.mpr (.inl ⟨_, listRuns_pages hnames _, ?_⟩)
    rw [List.filter_eq_nil_iff]
    intro run hrun
    have hmem := List.mem_filter.mp (List.mem_of_mem_take hrun)
    simp [hunnamed run hmem.1 hmem.2]
  have hfound : scanHeadShaFallback http p (l.cycle p.branch p.headSha).fallback =
      .ok ((l.ofCommit p.branch p.headSha).foldl (newer (cutoff p)) none) := by
    simp only [scanHeadShaFallback, scanRunsForFallback, Listing.cycle,
      listRuns_pages hcommit, Except.map, Listing.ofCommit]
  rw [scanCycle, hnone]
  simp only [hconf, reduceCtorEq, if_false, hfound]
  cases (l.ofCommit p.branch p.headSha).foldl (newer (cutoff p)) none <;> rfl

theorem hasRecent_eq_false {branch headSha : String} {cutoff : DateTime} {l : Listing} :
    l.HasRecent branch headSha cutoff = false ↔
      (l.ofCommit branch headSha).foldl (newer cutoff) none = none := by
  rw [foldl_newer_eq_none]
  simp [Listing.HasRecent]

theorem correlateRun_listings (started : DateTime) (r : Run) {ls : List Listing}
    (hnames : listRunsUri http p none = .ok namesUri)
    (hcommit : listRunsUri http p (some p.headSha) = .ok commitUri)
    (hconf : p.runNameConfigured = none)
    (hunnamed : ∀ l ∈ ls, ∀ run ∈ l.first, listed p.branch none run = true →
      carriesOwn p run = false) :
    correlateRun http p started (ls.map (Listing.cycle p.branch p.headSha)) = some (.ok r) ↔
      ∃ pre l post, ls = pre ++ l :: post ∧
        (∀ b ∈ pre, b.HasRecent p.branch p.headSha (cutoff p) = false) ∧
        InTime (started + NORMAL_TIMEOUT) none ((pre ++ [l]).map (Listing.cycle p.branch p.headSha)) ∧
        NewestSince (cutoff p) (l.ofCommit p.branch p.headSha) r := by
  have hscan : ∀ l ∈ ls, scanCycle http p (l.cycle p.branch p.headSha) =
      ((l.ofCommit p.branch p.headSha).foldl (newer (cutoff p)) none).map .ok :=
    fun l hl => scanCycle_listing hnames hcommit hconf (hunnamed l hl)
  rw [correlateRun_eq_ok]
  constructor
  · rintro ⟨pre, c, post, hls, hpre, htime, hc⟩
    obtain ⟨pre, rest, rfl, rfl, hrest⟩ := List.map_eq_append_iff.mp hls
    obtain ⟨l, post, rfl, rfl, rfl⟩ := List.map_eq_cons_iff.mp hrest
    refine ⟨pre, l, post, rfl, ?_, by simpa using htime, ?_⟩
    · intro b hb
      have hnone := hpre _ (List.mem_map_of_mem hb)
      rw [hscan b (List.mem_append_left _ hb), Option.map_eq_none_iff] at hnone
      exact hasRecent_eq_false.mpr hnone
    · rw [hscan l (by simp), Option.map_eq_some_iff] at hc
      obtain ⟨r', hr', heq⟩ := hc
      cases heq
      exact foldl_newer_eq_some.mp hr'
  · rintro ⟨pre, l, post, rfl, hpre, htime, hr⟩
    refine ⟨pre.map (Listing.cycle p.branch p.headSha), l.cycle p.branch p.headSha,
      post.map (Listing.cycle p.branch p.headSha), by simp, ?_, by simpa using htime, ?_⟩
    · intro c hc
      obtain ⟨b, hb, rfl⟩ := List.mem_map.mp hc
      rw [hscan b (List.mem_append_left _ hb), hasRecent_eq_false.mp (hpre b hb)]
      rfl
    · rw [hscan l (by simp), foldl_newer_eq_some.mpr hr]
      rfl

end Correlation

section Listing

variable {branch headSha : String} {l : Listing} {cutoff : DateTime} {r : Run}

theorem listed_some : listed branch (some headSha) r = true ↔
    listed branch none r = true ∧ r.headSha = headSha := by
  simp [listed]

theorem mem_take_filter {α : Type} {x : α} {xs : List α} {n m : Nat} {q : α → Bool}
    (hx : x ∈ xs.take n) (hq : q x = true) (hnm : n ≤ m) : x ∈ (xs.filter q).take m := by
  rw [← List.take_append_drop n xs, List.filter_append, List.take_append]
  have hlen : ((xs.take n).filter q).length ≤ m :=
    (List.length_filter_le q _).trans ((List.length_take_le n xs).trans hnm)
  rw [List.take_of_length_le hlen]
  exact List.mem_append_left _ (List.mem_filter.mpr ⟨hx, hq⟩)

theorem mem_ofCommit (hr : r ∈ (l.second.filter (listed branch none)).take 100)
    (hsha : r.headSha = headSha) : r ∈ l.ofCommit branch headSha := by
  have hfilter : l.second.filter (listed branch (some headSha)) =
      (l.second.filter (listed branch none)).filter (fun run => run.headSha == headSha) := by
    rw [List.filter_filter]
    apply List.filter_congr
    intro run _
    rw [Bool.eq_iff_iff, listed_some]
    simp [and_comm]
  rw [Listing.ofCommit, hfilter]
  exact mem_take_filter hr (by simpa using hsha) (by decide)

theorem headSha_of_mem_ofCommit (hr : r ∈ l.ofCommit branch headSha) :
    r ∈ l.second ∧ r.headSha = headSha := by
  obtain ⟨hmem, hlisted⟩ := List.mem_filter.mp (List.mem_of_mem_take hr)
  exact ⟨hmem, (listed_some.mp hlisted).2⟩

theorem hasRecent_of_mem (hr : r ∈ l.ofCommit branch headSha) (hcut : cutoff ≤ r.createdAt) :
    l.HasRecent branch headSha cutoff = true :=
  List.any_eq_true.mpr ⟨r, hr, decide_eq_true hcut⟩

theorem exists_newest (h : l.HasRecent branch headSha cutoff = true) :
    ∃ r, NewestSince cutoff (l.ofCommit branch headSha) r := by
  cases hfold : (l.ofCommit branch headSha).foldl (newer cutoff) none with
  | none =>
    rw [hasRecent_eq_false.mpr hfold] at h
    cases h
  | some r => exact ⟨r, foldl_newer_eq_some.mp hfold⟩

theorem append_prefix_of_find? {α : Type} {q : α → Bool} {xs pre post before after : List α} {a b : α}
    (hb : xs = before ++ b :: after) (hfirst : ∀ x ∈ before, q x = false)
    (ha : xs = pre ++ a :: post) (hqa : q a = true) : before ++ [b] <+: pre ++ [a] := by
  rw [hb] at ha
  rcases List.append_eq_append_iff.mp ha with ⟨mid, rfl, hmid⟩ | ⟨mid, rfl, hmid⟩
  · cases mid with
    | nil =>
      obtain ⟨rfl, -⟩ := List.cons.inj hmid
      simp
    | cons x mid =>
      obtain ⟨rfl, -⟩ := List.cons.inj hmid
      exact ⟨mid ++ [a], by simp⟩
  · cases mid with
    | nil =>
      obtain ⟨rfl, -⟩ := List.cons.inj hmid
      simp
    | cons x mid =>
      obtain ⟨rfl, -⟩ := List.cons.inj hmid
      rw [hfirst a (by simp)] at hqa
      cases hqa

end Listing

section Trigger

variable (crates : DispatchCrates) (params : FlowDispatchParams) (trigger : TriggerSignal)
  (env : TriggerEnv) (outcome : DispatchOutcome)

def correlated : CorrelateParams :=
  correlateParams outcome (refToBranch params.action.refName) trigger.observedSha.toHex

/-- The POST was accepted and no route of the two scans is refused. -/
structure Dispatched : Prop where
  posted : ∃ dp, dispatchParams crates params trigger env = .ok dp ∧
    dispatchWithRetry crates.http params.client dp DISPATCH_MAX_ATTEMPTS env.attempts =
      some (.ok outcome)
  namesRoute : ∃ uri, listRunsUri crates.http (correlated params trigger outcome) none = .ok uri
  commitRoute : ∃ uri, listRunsUri crates.http (correlated params trigger outcome)
    (some trigger.observedSha.toHex) = .ok uri

/-- The cycle after `before` comes in time and GitHub then lists the created run,
of the commit, on the first page and as the newest. -/
structure ListedAt (created : Run) (commit : String) (before : List Listing) (l : Listing) :
    Prop where
  inTime : InTime (env.correlationStarted + NORMAL_TIMEOUT) none
    ((before ++ [l]).map
      (Listing.cycle (refToBranch params.action.refName) trigger.observedSha.toHex))
  firstPage : created ∈ (l.second.filter (listed (refToBranch params.action.refName) none)).take 100
  headSha : created.headSha = commit
  since : cutoff (correlated params trigger outcome) ≤ created.createdAt
  newest : ∀ x ∈ l.second, listed (refToBranch params.action.refName) none x = true →
    x ≠ created → x.createdAt < created.createdAt

variable {crates params trigger env outcome}

theorem handleTrigger_starts (h : Dispatched crates params trigger env outcome) (id : UInt64) :
    (∃ handled, handleTrigger crates params trigger env = some handled ∧
      handled.update = some (.runStarted params.flowName id env.runStartedAt)) ↔
    env.stateOpen = true ∧ ∃ r, correlateRun crates.http (correlated params trigger outcome)
      env.correlationStarted env.cycles = some (.ok r) ∧ r.id = id := by
  obtain ⟨dp, hdp, hpost⟩ := h.posted
  rw [handleTrigger, hdp]
  simp only [executeDispatchAndCorrelate, execute, hpost, correlate]
  rw [show correlateParams outcome (refToBranch params.action.refName) trigger.observedSha.toHex =
    correlated params trigger outcome from rfl]
  cases correlateRun crates.http (correlated params trigger outcome) env.correlationStarted
    env.cycles with
  | none => simp
  | some result =>
    cases result with
    | error e => simp [Except.map]
    | ok r =>
      cases hopen : env.stateOpen with
      | true => simp [Except.map, startRun, hopen]
      | false => simp [Except.map, startRun, hopen]

/-- Where the claim about one dispatch applies (its POST was accepted, no request
fails, no run has a marked name, and GitHub lists the created run as the newest of
the first page in some cycle before the deadline), the call sends `RunStarted` for
that run if and only if the state writer is there, the commit the poll loop saw is
the commit of the run, and in the first cycle that lists a recent run of that
commit the newest one is the created one. -/
theorem own_run_started_iff (crates : DispatchCrates) (params : FlowDispatchParams)
    (trigger : TriggerSignal) (env : TriggerEnv) (outcome : DispatchOutcome)
    (ls before after : List Listing) (l : Listing) (created : Run) (commit : String)
    (hdispatched : Dispatched crates params trigger env outcome)
    (hcycles : env.cycles = ls.map
      (Listing.cycle (refToBranch params.action.refName) trigger.observedSha.toHex))
    (hunnamed : ∀ k ∈ ls, ∀ run ∈ k.first, listed (refToBranch params.action.refName) none run = true →
      contains run.name (marker outcome.gcitRunId) = false)
    (hls : ls = before ++ l :: after)
    (hlisted : ListedAt params trigger env outcome created commit before l)
    (hids : ∀ k ∈ ls, ∀ run ∈ k.second, run.id = created.id → run.headSha = created.headSha) :
    (∃ handled, handleTrigger crates params trigger env = some handled ∧
      handled.update = some (.runStarted params.flowName created.id env.runStartedAt)) ↔
    env.stateOpen = true ∧ trigger.observedSha.toHex = commit ∧
      ∀ k, ls.find? (Listing.HasRecent (refToBranch params.action.refName) trigger.observedSha.toHex
          (outcome.dispatchedAt - CLOCK_SKEW_BUFFER)) = some k →
        ∀ r, NewestSince (outcome.dispatchedAt - CLOCK_SKEW_BUFFER)
            (k.ofCommit (refToBranch params.action.refName) trigger.observedSha.toHex) r →
          r.id = created.id := by
  obtain ⟨namesUri, hnames⟩ := hdispatched.namesRoute
  obtain ⟨commitUri, hcommit⟩ := hdispatched.commitRoute
  have hcorrelate := fun r =>
    correlateRun_listings env.correlationStarted r hnames hcommit rfl hunnamed
  rw [handleTrigger_starts hdispatched, hcycles]
  apply and_congr_right
  intro _
  constructor
  · rintro ⟨r, hr, hid⟩
    obtain ⟨pre, k, post, hk, hpre, -, hnewest⟩ := (hcorrelate r).mp hr
    obtain ⟨hmem, hsha⟩ := headSha_of_mem_ofCommit hnewest.mem
    have hkmem : k ∈ ls := by
      rw [hk]
      simp
    have hcreated := hids k hkmem r hmem hid
    refine ⟨hsha.symm.trans (hcreated.trans hlisted.headSha), ?_⟩
    intro k' hk' r' hr'
    have hfind : ls.find? _ = some k := List.find?_eq_some_iff_append.mpr
      ⟨hasRecent_of_mem hnewest.mem hnewest.since, pre, post, hk, fun b hb => by simp [hpre b hb]⟩
    obtain rfl : k = k' := Option.some.inj (hfind.symm.trans hk')
    rw [hr'.unique hnewest, hid]
  · rintro ⟨hsha, hfirst⟩
    have hrecent : l.HasRecent (refToBranch params.action.refName) trigger.observedSha.toHex
        (outcome.dispatchedAt - CLOCK_SKEW_BUFFER) = true :=
      hasRecent_of_mem (mem_ofCommit hlisted.firstPage (hlisted.headSha.trans hsha.symm)) hlisted.since
    have hmem : l ∈ ls := by
      rw [hls]
      simp
    obtain ⟨k, hk⟩ := Option.isSome_iff_exists.mp (List.find?_isSome.mpr ⟨l, hmem, hrecent⟩)
    obtain ⟨hkrecent, pre, post, hpost, hpre⟩ := List.find?_eq_some_iff_append.mp hk
    have hpre : ∀ b ∈ pre, _ = false := fun b hb => by simpa using hpre b hb
    obtain ⟨r, hr⟩ := exists_newest hkrecent
    refine ⟨r, (hcorrelate r).mpr ⟨pre, k, post, hpost, hpre, ?_, hr⟩, hfirst k hk r hr⟩
    obtain ⟨rest, hrest⟩ := append_prefix_of_find? hpost hpre hls hrecent
    have htime := hlisted.inTime
    rw [← hrest, List.map_append, inTime_append] at htime
    exact htime.1

end Trigger

def listingAt (now : DateTime) (runs : List Run) : Listing where
  cancelled := false
  onset := now
  now := now
  cancelledAtTimeout := false
  first := runs
  second := runs

/-- The call of a trigger for this commit whose POST is accepted at once. -/
def acceptedCall (observedSha : ObjectId) (ls : List Listing) : TriggerEnv :=
  callAt (.repeated 1) [attemptAt 0 accepted true] (ls.map (Listing.cycle "main" observedSha.toHex))

def acceptedOutcome : DispatchOutcome := ⟨.repeated 1, 0, "owner/repo", "ci.yml", "refs/heads/main"⟩

/-- A flow that runs the workflow of the repository it watches. -/
def ownFlow : FlowDispatchParams :=
  { mainFlow with url := "https://github.com/owner/repo", refName := "refs/heads/main" }

/-- The commit that the poll loop saw is the one the action runs on. -/
theorem run_of_polled_commit_started :
    ∃ handled, handleTrigger plainCrates ownFlow ⟨.repeated 10, 0⟩
        (acceptedCall (.repeated 10)
          [listingAt 1 [mainRun 7 "CI" (ObjectId.repeated 10).toHex 1]]) = some handled ∧
      handled.update = some (.runStarted "linux" 7 0) := by
  let created := mainRun 7 "CI" (ObjectId.repeated 10).toHex 1
  have hdispatched : Dispatched plainCrates ownFlow ⟨.repeated 10, 0⟩
      (acceptedCall (.repeated 10) [listingAt 1 [created]]) acceptedOutcome :=
    ⟨⟨⟨"owner/repo", "ci.yml", "refs/heads/main", .repeated 1, ∅⟩, rfl, rfl⟩, ⟨_, rfl⟩, ⟨_, rfl⟩⟩
  have hlisted : ListedAt ownFlow ⟨.repeated 10, 0⟩
      (acceptedCall (.repeated 10) [listingAt 1 [created]]) acceptedOutcome created
      (ObjectId.repeated 10).toHex [] (listingAt 1 [created]) :=
    ⟨⟨by decide, trivial⟩, by decide +kernel, rfl, by decide, by decide +kernel⟩
  refine (own_run_started_iff plainCrates ownFlow ⟨.repeated 10, 0⟩ _ acceptedOutcome
    [listingAt 1 [created]] [] [] (listingAt 1 [created]) created (ObjectId.repeated 10).toHex
    hdispatched rfl (by decide +kernel) rfl hlisted (by decide +kernel)).mpr ⟨rfl, rfl, ?_⟩
  intro k hk r hr
  obtain rfl : k = listingAt 1 [created] := List.mem_singleton.mp (List.mem_of_find?_eq_some hk)
  obtain rfl : r = created := List.mem_singleton.mp (headSha_of_mem_ofCommit hr.mem).1
  rfl

/-- The source and the action are two repositories: GitHub has the created run
from the first cycle on, the correlator asks for the commit of the other
repository until its deadline, and nothing is recorded. -/
theorem run_of_other_repository_never_found :
    let created := mainRun 7 "CI" (ObjectId.repeated 11).toHex 1
    handleTrigger plainCrates mainFlow ⟨.repeated 10, 0⟩
        (acceptedCall (.repeated 10) [listingAt 1 [created], listingAt NORMAL_TIMEOUT [created]]) =
      some ⟨none, none, .error (.fromCorrelationError plainCrates.formats "correlate"
        (.timeout "owner/repo" "ci.yml" (.repeated 1) NORMAL_TIMEOUT))⟩ := by
  rfl

end Gcit.Flow
