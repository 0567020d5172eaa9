import Gcit.Github.Markers
import Gcit.Github.Monitor
import Gcit.Github.QuotaGate
import Gcit.Library.Pages

/-! # The page loops

The jobs of a run and the runs of a workflow are listed page by page. Each loop is the walk
along links with a body and a cap of its own; the loop over jobs also stops at a number of
jobs. The scans are those of the correlator, with the requests they make.
-/

namespace Gcit.Github.Pagination

open Gcit Gcit.Git Gcit.Library Gcit.Library.Pages

structure JobStep where
  name : String
  number : Int
  conclusion : Option String
  startedAt : Option DateTime
  completedAt : Option DateTime

structure Job where
  id : UInt64
  name : String
  htmlUrl : String
  conclusion : Option String
  startedAt : DateTime
  completedAt : Option DateTime
  steps : List JobStep
  runAttempt : UInt32

structure StepResult where
  name : String
  number : UInt32
  conclusion : Option Conclusion
  startedAt : Option DateTime
  completedAt : Option DateTime

structure JobResult where
  jobId : UInt64
  name : String
  htmlUrl : String
  conclusion : Option Conclusion
  startedAt : Option DateTime
  completedAt : Option DateTime
  steps : List StepResult
  runAttempt : UInt32

def stepToResult (step : JobStep) : StepResult where
  name := step.name
  number := if 0 ≤ step.number ∧ step.number.toNat < UInt32.size then .ofNat step.number.toNat else 0
  conclusion := step.conclusion.map .fromApi
  startedAt := step.startedAt
  completedAt := step.completedAt

def jobToResult (job : Job) : JobResult where
  jobId := job.id
  name := job.name
  htmlUrl := job.htmlUrl
  conclusion := job.conclusion.map .fromApi
  startedAt := some job.startedAt
  completedAt := job.completedAt
  steps := job.steps.map stepToResult
  runAttempt := job.runAttempt

structure JobsPage where
  items : List Job
  next : Option String

abbrev JobServer := Nat → String → Except GithubErrorKind JobsPage

def MAX_JOBS_PER_RUN : Nat := 1000

def request {π σ : Type} (uri : Except GithubErrorKind String)
    (run : String → Walk GithubErrorKind π σ) : Walk GithubErrorKind π σ :=
  match uri with
  | .error e => ⟨[], .error e⟩
  | .ok uri => run uri

section Loops

variable (http : HttpCrate)

def jobsUri (params : MonitorParams) : Except GithubErrorKind String := do
  let (owner, repo) ← splitRepo params.repo
  uriOrUnknown http ("/repos/" ++ owner ++ "/" ++ repo ++ "/actions/runs/" ++
    toString params.runId ++ "/jobs?filter=latest&per_page=100")

def listAllJobs (params : MonitorParams) (server : JobServer) :
    Walk GithubErrorKind JobsPage (List JobResult) :=
  request (jobsUri http params) fun uri =>
    walk JobsPage.items JobsPage.next server (fun out job => out ++ [jobToResult job])
      (fun out => MAX_JOBS_PER_RUN ≤ out.length) MAX_JOBS_PAGES uri []

variable (params : CorrelateParams)

def collectMatch (matches_ : List Run) (run : Run) : List Run :=
  if contains run.name (marker params.gcitRunId) then matches_ ++ [run] else matches_

def matchedRuns (server : Server) : Walk GithubErrorKind Page (List Run) :=
  request (listRunsUri http params none) fun uri =>
    walk Page.items Page.next server (collectMatch params) (fun _ => false) MAX_PAGES_PER_POLL uri []

def scanResult : List Run → ScanResult
  | [] => .noMatch
  | [run] => .singleMatch run
  | matches_ => .duplicateMatch (matches_.map Run.id)

def scanRunsForMatch (server : Server) : Walk GithubErrorKind Page ScanResult :=
  (matchedRuns http params server).map scanResult

def scanRunsForFallback (server : Server) : Walk GithubErrorKind Page (Option Run) :=
  request (listRunsUri http params (some params.headSha)) fun uri =>
    walk Page.items Page.next server (newer (cutoff params)) (fun _ => false) MAX_PAGES_PER_POLL
      uri none

end Loops

theorem outcome_follow {σ : Type} {server : Server} {step : σ → Run → σ} {cap pages : Nat}
    {current : Page} {s : σ} {w : Walk GithubErrorKind Page σ}
    (h : Follows Page.items Page.next server step (fun _ => false) cap pages current s w) :
    w.outcome = (match current.next with
      | some uri => walkPages server (cap - (pages + 1)) (pages + 1) uri
      | none => .ok []).map fun runs => (current.items ++ runs).foldl step s := by
  induction h with
  | @ended pages current s hend =>
    obtain hstop | hcap | hnext := hend
    · cases hstop
    · rw [Nat.sub_eq_zero_of_le hcap, visit_never]
      cases current.next <;> simp [walkPages, Except.map]
    · rw [hnext, visit_never]
      simp [Except.map]
  | failed hcap hnext hserver =>
    obtain ⟨budget, hbudget⟩ := Nat.exists_eq_add_of_lt hcap
    rw [hnext, hbudget, show ∀ n, n + budget + 1 - n = budget + 1 by omega]
    simp only [walkPages, hserver, Except.map]
  | @more pages current s uri page w hstop hcap hnext hserver hrest ih =>
    obtain ⟨budget, hbudget⟩ := Nat.exists_eq_add_of_lt hcap
    rw [visit_never, show cap - (pages + 1 + 1) = budget by omega] at ih
    rw [hnext, show cap - (pages + 1) = budget + 1 by omega]
    simp only [walkPages, hserver, Walk.cons, ih]
    cases page.next with
    | none => simp [Except.map, List.foldl_append]
    | some uri =>
      dsimp only
      cases walkPages server budget (pages + 1 + 1) uri <;> simp [Except.map, List.foldl_append]

theorem outcome_walk {σ : Type} (server : Server) (step : σ → Run → σ) (budget : Nat)
    (uri : String) (s : σ) :
    (walk Page.items Page.next server step (fun _ => false) (budget + 1) uri s).outcome =
      (walkPages server (budget + 1) 0 uri).map fun runs => runs.foldl step s := by
  obtain ⟨e, hserver, heq⟩ | ⟨page, w, hserver, heq, hfollows⟩ :=
    walk_cases Page.items Page.next server step (fun _ => false) (budget + 1) uri s
  · rw [heq]
    simp only [walkPages, hserver, Except.map]
  · rw [heq]
    simp only [Walk.cons, outcome_follow hfollows, walkPages, hserver, Nat.add_sub_cancel,
      Nat.zero_add]
    cases page.next with
    | none => simp [Except.map]
    | some uri =>
      dsimp only
      cases walkPages server budget 1 uri <;> simp [Except.map, List.foldl_append]

theorem foldl_collectMatch (params : CorrelateParams) (runs matches_ : List Run) :
    runs.foldl (collectMatch params) matches_ = matches_ ++ runs.filter (carriesOwn params) := by
  induction runs generalizing matches_ with
  | nil => simp
  | cons run runs ih =>
    rw [List.foldl_cons, ih, collectMatch, List.filter_cons, carriesOwn]
    split <;> simp

section Scans

variable (http : HttpCrate) (params : CorrelateParams) (server : Server)

/-- The loops return what the correlator's scans return. -/
theorem outcome_scanRunsForMatch :
    (scanRunsForMatch http params server).outcome = Github.scanRunsForMatch http params server := by
  unfold scanRunsForMatch matchedRuns Github.scanRunsForMatch listRuns request
  cases listRunsUri http params none with
  | error e => rfl
  | ok uri =>
    simp only [Walk.map, outcome_walk, MAX_PAGES_PER_POLL, bind, Except.bind]
    cases walkPages server 5 0 uri with
    | error e => rfl
    | ok runs =>
      simp only [Except.map, foldl_collectMatch, List.nil_append]
      exact congrArg Except.ok (by
        unfold scanResult carriesOwn
        rfl)

theorem outcome_scanRunsForFallback :
    (scanRunsForFallback http params server).outcome =
      Github.scanRunsForFallback http params server := by
  unfold scanRunsForFallback Github.scanRunsForFallback listRuns request
  cases listRunsUri http params (some params.headSha) with
  | error e => rfl
  | ok uri => simp only [outcome_walk, MAX_PAGES_PER_POLL, bind, Except.bind]

end Scans

/-- What a walk asked for: at most `cap` pages, each behind the link of the one before. -/
structure Bounded {π σ : Type} (next : π → Option String)
    (server : Nat → String → Except GithubErrorKind π) (cap : Nat)
    (uri : Except GithubErrorKind String) (w : Walk GithubErrorKind π σ) : Prop where
  length_le : w.answers.length ≤ cap
  linked : ∀ first, uri = .ok first → Linked next server 0 first w.answers
  failed : ∀ e, w.outcome = .error e → uri = .error e ∨ w.answers.getLast? = some (.error e)

theorem bounded_request {α π σ : Type} {items : π → List α} {next : π → Option String}
    {server : Nat → String → Except GithubErrorKind π} {step : σ → α → σ} {stop : σ → Bool}
    {cap : Nat} (hcap : 0 < cap) (uri : Except GithubErrorKind String) (s : σ) :
    Bounded next server cap uri
      (request uri fun uri => walk items next server step stop cap uri s) := by
  cases uri with
  | error e => exact ⟨Nat.zero_le cap, nofun, fun _ h => .inl (congrArg _ (Except.error.inj h))⟩
  | ok first =>
    refine ⟨length_answers_walk_le hcap, ?_, fun e h => .inr (walk_outcome_eq_error_iff.mp h)⟩
    rintro _ ⟨⟩
    exact linked_walk

/-- The walk ends at a page without a link, unless a cap ends it. -/
def AtLastPage {π : Type} (next : π → Option String) (cap : Nat) (pages : List π) : Prop :=
  cap ≤ pages.length ∨ ∃ last ∈ pages.getLast?, next last = none

theorem Bounded.map {π σ τ : Type} {next : π → Option String}
    {server : Nat → String → Except GithubErrorKind π} {cap : Nat}
    {uri : Except GithubErrorKind String} {w : Walk GithubErrorKind π σ}
    (h : Bounded next server cap uri w) (f : σ → τ) : Bounded next server cap uri (w.map f) where
  length_le := h.length_le
  linked := h.linked
  failed e he := by
    apply h.failed e
    simp only [Walk.map] at he
    cases houtcome : w.outcome with
    | error e' => rw [houtcome] at he; cases he; rfl
    | ok s => rw [houtcome] at he; cases he

theorem listAllJobs_of_ok (http : HttpCrate) (run : MonitorParams) (server : JobServer)
    {pages : List JobsPage} (hpages : pages ≠ [])
    (hok : (listAllJobs http run server).answers = pages.map .ok) :
    (listAllJobs http run server).outcome =
        .ok (((pages.flatMap JobsPage.items).take MAX_JOBS_PER_RUN).map jobToResult) ∧
      ((pages.flatMap JobsPage.items).length < MAX_JOBS_PER_RUN →
        AtLastPage JobsPage.next MAX_JOBS_PAGES pages) := by
  unfold listAllJobs at hok ⊢
  cases huri : jobsUri http run with
  | error e =>
    rw [huri] at hok
    exact absurd (List.map_eq_nil_iff.mp hok.symm) hpages
  | ok uri =>
    rw [huri] at hok
    obtain ⟨houtcome, hended⟩ := walk_of_ok (by decide) hok
    have hnone : ([] : List JobResult).length < MAX_JOBS_PER_RUN := by decide
    rw [visit_push hnone] at houtcome hended
    refine ⟨houtcome, fun hfew => hended.resolve_left fun hstop => ?_⟩
    have hfull := of_decide_eq_true hstop
    rw [List.nil_append, List.length_map, List.length_take] at hfull
    exact absurd hfew (Nat.not_lt.mpr (Nat.le_trans hfull (Nat.min_le_right _ _)))

theorem scanRunsForFallback_of_ok (http : HttpCrate) (params : CorrelateParams) (server : Server)
    {pages : List Page} (hpages : pages ≠ [])
    (hok : (scanRunsForFallback http params server).answers = pages.map .ok) :
    (scanRunsForFallback http params server).outcome =
        .ok ((pages.flatMap Page.items).foldl (newer (cutoff params)) none) ∧
      AtLastPage Page.next MAX_PAGES_PER_POLL pages := by
  unfold scanRunsForFallback at hok ⊢
  cases huri : listRunsUri http params (some params.headSha) with
  | error e =>
    rw [huri] at hok
    exact absurd (List.map_eq_nil_iff.mp hok.symm) hpages
  | ok uri =>
    rw [huri] at hok
    obtain ⟨houtcome, hended⟩ := walk_of_ok rfl hok
    rw [visit_never] at houtcome
    exact ⟨houtcome, hended.resolve_left Bool.false_ne_true⟩

/-- Whatever the links lead to, the loops make no more requests than their caps allow; and
if none fails, the jobs are those of the pages seen, all of them below the caps, and the
run of the fallback is the first of the newest among the runs seen since the cutoff. -/
theorem pages_end_and_lose_nothing (http : HttpCrate) (run : MonitorParams)
    (params : CorrelateParams) (jobServer : JobServer) (server : Server) :
    let jobs := listAllJobs http run jobServer
    let named := scanRunsForMatch http params server
    let newest := scanRunsForFallback http params server
    Bounded JobsPage.next jobServer MAX_JOBS_PAGES (jobsUri http run) jobs ∧
      Bounded Page.next server MAX_PAGES_PER_POLL (listRunsUri http params none) named ∧
      Bounded Page.next server MAX_PAGES_PER_POLL (listRunsUri http params (some params.headSha))
        newest ∧
      (∀ pages, pages ≠ [] → jobs.answers = pages.map .ok → ∃ out, jobs.outcome = .ok out ∧
        out <+: (pages.flatMap JobsPage.items).map jobToResult ∧ out.length ≤ MAX_JOBS_PER_RUN ∧
        (out.length < MAX_JOBS_PER_RUN → out = (pages.flatMap JobsPage.items).map jobToResult ∧
          AtLastPage JobsPage.next MAX_JOBS_PAGES pages)) ∧
      ∀ pages, pages ≠ [] → newest.answers = pages.map .ok → ∃ found, newest.outcome = .ok found ∧
        (∀ r, found = some r ↔ NewestSince (cutoff params) (pages.flatMap Page.items) r) ∧
        (found = none ↔ ∀ r ∈ pages.flatMap Page.items, r.createdAt < cutoff params) ∧
        AtLastPage Page.next MAX_PAGES_PER_POLL pages := by
  refine ⟨bounded_request (by decide) _ _, (bounded_request (by decide) _ _).map scanResult,
    bounded_request (by decide) _ _, fun pages hpages hok => ?_, fun pages hpages hok => ?_⟩
  · obtain ⟨houtcome, hlast⟩ := listAllJobs_of_ok http run jobServer hpages hok
    have hlength : (((pages.flatMap JobsPage.items).take MAX_JOBS_PER_RUN).map jobToResult).length =
        min MAX_JOBS_PER_RUN (pages.flatMap JobsPage.items).length := by
      rw [List.length_map, List.length_take]
    refine ⟨_, houtcome, (List.take_prefix _ _).map _, hlength ▸ Nat.min_le_left _ _, fun hfew => ?_⟩
    have hall : (pages.flatMap JobsPage.items).length < MAX_JOBS_PER_RUN := by
      rw [hlength] at hfew
      omega
    exact ⟨by rw [List.take_of_length_le (Nat.le_of_lt hall)], hlast hall⟩
  · obtain ⟨houtcome, hlast⟩ := scanRunsForFallback_of_ok http params server hpages hok
    exact ⟨_, houtcome, fun r => foldl_newer_eq_some, foldl_newer_eq_none, hlast⟩

end Gcit.Github.Pagination
