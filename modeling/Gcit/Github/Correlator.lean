import Gcit.Github.Dispatcher

/-! # Finding the run of a dispatch

Each cycle lists the runs of the workflow from the first page on and looks for
the dispatch's marker in a name; when there is none it lists the runs of one
commit and takes the newest. What the server answers to the requests of a scan is
given by their number within the scan and their uri. The cycles come as a tape,
with the readings of clock and token each of them makes.
-/

namespace Gcit.Github

open Std Gcit Gcit.Git Gcit.Library

inductive Conclusion where
  | success
  | skipped
  | neutral
  | failure
  | timedOut
  | cancelled
  | actionRequired
  | unknown
  deriving DecidableEq, Repr

def Conclusion.fromApi (s : String) : Conclusion :=
  if s = "success" then .success
  else if s = "skipped" then .skipped
  else if s = "neutral" then .neutral
  else if s = "failure" then .failure
  else if s = "timed_out" then .timedOut
  else if s = "cancelled" then .cancelled
  else if s = "action_required" then .actionRequired
  else .unknown

inductive RunStatus where
  | queued
  | inProgress
  | completed
  | waiting
  | unknown
  deriving DecidableEq, Repr

def RunStatus.fromApi (s : String) : RunStatus :=
  if s = "queued" then .queued
  else if s = "in_progress" then .inProgress
  else if s = "completed" then .completed
  else if s = "waiting" then .waiting
  else .unknown

/-- A listed run. Event, branch and commit are read by no one on this side. -/
structure Run where
  id : UInt64
  name : String
  event : String
  headBranch : String
  headSha : String
  htmlUrl : String
  runNumber : Int
  status : String
  conclusion : Option String
  createdAt : DateTime
  updatedAt : DateTime
  deriving DecidableEq

/-- The correlator leaves the jobs empty, so they are left out. -/
structure RunSummary where
  runId : UInt64
  runUrl : String
  runNumber : Nat
  runAttempt : Nat
  status : RunStatus
  conclusion : Option Conclusion
  startedAt : Option DateTime
  completedAt : Option DateTime
  deriving DecidableEq

def runToSummary (run : Run) : RunSummary where
  runId := run.id
  runUrl := run.htmlUrl
  runNumber := run.runNumber.toNat
  runAttempt := 1
  status := .fromApi run.status
  conclusion := run.conclusion.map .fromApi
  startedAt := some run.createdAt
  completedAt := some run.updatedAt

structure Page where
  items : List Run
  next : Option String
  deriving DecidableEq

/-- The answer to the request of this number within a scan. -/
abbrev Server := Nat → String → Except GithubErrorKind Page

def NORMAL_TIMEOUT : Duration := seconds 300

def DRAIN_TIMEOUT : Duration := seconds 30

def MAX_PAGES_PER_POLL : Nat := 5

def CLOCK_SKEW_BUFFER : Duration := seconds 120

structure CorrelateParams where
  repo : String
  workflow : String
  gcitRunId : Uuid
  branch : String
  headSha : String
  dispatchedAt : DateTime
  runNameConfigured : Option Bool

structure CorrelationOutcome where
  runId : UInt64
  summary : RunSummary
  deriving DecidableEq

inductive CorrelationError where
  | duplicateMatch (repo workflow : String) (gcitRunId : Uuid) (runIds : List UInt64)
  | timeout (repo workflow : String) (gcitRunId : Uuid) (timeout : Duration)
  | github (e : GithubErrorKind)
  deriving DecidableEq

def CorrelationError.display (formats : Formats) : CorrelationError → String
  | .duplicateMatch repo workflow gcitRunId runIds =>
    "workflow " ++ repo ++ "/" ++ workflow ++ " matched gcit_run_id=" ++ gcitRunId.toText ++ " on " ++
      toString runIds.length ++ " runs (ids: [" ++ ", ".intercalate (runIds.map toString) ++
      "]); this means the workflow spawned multiple parallel runs with the same input. fix: " ++
      "ensure exactly one job carries `run-name: gcit-$\x7b\x7b inputs.gcit_run_id \x7d\x7d` and " ++
      "that no matrix expansion creates duplicates. gcit refuses to track an ambiguous correlation."
  | .timeout repo workflow gcitRunId d =>
    "github_run_correlation_timeout: workflow " ++ repo ++ "/" ++ workflow ++
      " did not produce a matching run within " ++ formats.duration d ++ " (gcit_run_id=" ++
      gcitRunId.toText ++ "). Check https://github.com/" ++ repo ++
      "/actions for the run status, or add a `run-name: gcit-$\x7b\x7b inputs.gcit_run_id " ++
      "\x7d\x7d` directive to the workflow if not present."
  | .github e => "github error during correlation: " ++ e.display formats

/-- Empty for a ref that is no branch. -/
def refToBranch (refName : String) : String :=
  if "refs/heads/".toList.isPrefixOf refName.toList then
    String.ofList (refName.toList.drop "refs/heads/".length)
  else ""

variable (http : HttpCrate) (params : CorrelateParams)

def listRunsUri (headSha : Option String) : Except GithubErrorKind String := do
  let (owner, repo) ← splitRepo params.repo
  let path := "/repos/" ++ owner ++ "/" ++ repo ++ "/actions/workflows/" ++ params.workflow ++
    "/runs?event=workflow_dispatch&per_page=100"
  let path := if params.branch = "" then path else path ++ "&branch=" ++ params.branch
  let path := match headSha with
    | some sha => path ++ "&head_sha=" ++ sha
    | none => path
  match http.uriParse path with
  | .ok () => return path
  | .error e => throw (.unknown ("correlator route URI invalid: " ++ e))

/-- The runs on the page the uri leads to and on those linked behind it, at most
`budget` pages. -/
def walkPages (server : Server) : (budget number : Nat) → (uri : String) →
    Except GithubErrorKind (List Run)
  | 0, _, _ => .ok []
  | budget + 1, number, uri => match server number uri with
    | .error e => .error e
    | .ok page => match page.next with
      | some next => (walkPages server budget (number + 1) next).map (page.items ++ ·)
      | none => .ok page.items

def listRuns (headSha : Option String) (server : Server) : Except GithubErrorKind (List Run) := do
  let uri ← listRunsUri http params headSha
  walkPages server MAX_PAGES_PER_POLL 0 uri

inductive ScanResult where
  | noMatch
  | singleMatch (run : Run)
  | duplicateMatch (ids : List UInt64)
  deriving DecidableEq

def marker (gcitRunId : Uuid) : String := "gcit-" ++ gcitRunId.toText

def scanRunsForMatch (server : Server) : Except GithubErrorKind ScanResult :=
  (listRuns http params none server).map fun runs =>
    match runs.filter fun run => contains run.name (marker params.gcitRunId) with
    | [] => .noMatch
    | [run] => .singleMatch run
    | matches_ => .duplicateMatch (matches_.map Run.id)

def newer (cutoff : DateTime) (newest : Option Run) (run : Run) : Option Run :=
  if run.createdAt < cutoff then newest
  else match newest with
    | none => some run
    | some prev => if prev.createdAt < run.createdAt then some run else newest

def cutoff : DateTime := params.dispatchedAt - CLOCK_SKEW_BUFFER

def scanRunsForFallback (server : Server) : Except GithubErrorKind (Option Run) :=
  (listRuns http params (some params.headSha) server).map fun runs =>
    runs.foldl (newer (cutoff params)) none

def scanNameMatch (server : Server) : Except CorrelationError (Option Run) :=
  match scanRunsForMatch http params server with
  | .ok (.singleMatch run) => .ok (some run)
  | .ok (.duplicateMatch ids) =>
    .error (.duplicateMatch params.repo params.workflow params.gcitRunId ids)
  | .ok .noMatch => .ok none
  | .error e => if e.isTransient then .ok none else .error (.github e)

def scanHeadShaFallback (server : Server) : Except CorrelationError (Option Run) :=
  match scanRunsForFallback http params server with
  | .ok found => .ok found
  | .error e => if e.isTransient then .ok none else .error (.github e)

/-- One round of the loop: the readings of the token and of the clock at its
deadline check, and what the server answers to its two scans. -/
structure CorrelateCycle where
  cancelled : Bool
  onset : DateTime
  now : DateTime
  cancelledAtTimeout : Bool
  names : Server
  fallback : Server

/-- What the two scans of a cycle decide, if anything. -/
def scanCycle (c : CorrelateCycle) : Option (Except CorrelationError Run) :=
  match scanNameMatch http params c.names with
  | .error e => some (.error e)
  | .ok (some run) => some (.ok run)
  | .ok none =>
    if params.runNameConfigured = some true then none
    else match scanHeadShaFallback http params c.fallback with
      | .error e => some (.error e)
      | .ok (some run) => some (.ok run)
      | .ok none => none

/-- The drain starts where the token is first seen cancelled. -/
def CorrelateCycle.drainStart (drainStart : Option DateTime) (c : CorrelateCycle) : Option DateTime :=
  if c.cancelled then some (drainStart.getD c.onset) else drainStart

def computeEffectiveDeadline (normalDeadline : DateTime) (drainStart : Option DateTime)
    (c : CorrelateCycle) : DateTime :=
  if c.cancelled then min normalDeadline (drainStart.getD c.onset + DRAIN_TIMEOUT)
  else normalDeadline

def correlateRound (normalDeadline : DateTime) (drainStart : Option DateTime) (c : CorrelateCycle) :
    Except CorrelationError Run ⊕ Option DateTime :=
  if computeEffectiveDeadline normalDeadline drainStart c ≤ c.now then
    .inl (.error (.timeout params.repo params.workflow params.gcitRunId
      (if c.cancelledAtTimeout then DRAIN_TIMEOUT else NORMAL_TIMEOUT)))
  else match scanCycle http params c with
    | some result => .inl result
    | none => .inr (c.drainStart drainStart)

/-- The run `correlate` settles on, once the cycles so far have brought a result. -/
def correlateRun (started : DateTime) (cycles : List CorrelateCycle) :
    Option (Except CorrelationError Run) :=
  Tape.play (correlateRound http params (started + NORMAL_TIMEOUT)) none cycles

def correlate (started : DateTime) (cycles : List CorrelateCycle) :
    Option (Except CorrelationError CorrelationOutcome) :=
  (correlateRun http params started cycles).map fun result =>
    result.map fun run => ⟨run.id, runToSummary run⟩

def InTime (normalDeadline : DateTime) : Option DateTime → List CorrelateCycle → Prop
  | _, [] => True
  | drainStart, c :: cs => c.now < computeEffectiveDeadline normalDeadline drainStart c ∧
      InTime normalDeadline (c.drainStart drainStart) cs

variable {http : HttpCrate} {params : CorrelateParams} {normalDeadline : DateTime}

theorem inTime_append (drainStart : Option DateTime) (pre cs : List CorrelateCycle) :
    InTime normalDeadline drainStart (pre ++ cs) ↔ InTime normalDeadline drainStart pre ∧
      InTime normalDeadline (pre.foldl CorrelateCycle.drainStart drainStart) cs := by
  induction pre generalizing drainStart with
  | nil => simp [InTime]
  | cons c pre ih => simp [InTime, ih, and_assoc]

theorem correlateRound_eq_inr {drainStart t : Option DateTime} {c : CorrelateCycle} :
    correlateRound http params normalDeadline drainStart c = .inr t ↔
      c.now < computeEffectiveDeadline normalDeadline drainStart c ∧
        scanCycle http params c = none ∧ c.drainStart drainStart = t := by
  unfold correlateRound
  split
  · next hlate => simp [Int.not_lt.mpr hlate]
  · next htime =>
    cases hscan : scanCycle http params c with
    | none => simp [Int.not_le.mp htime]
    | some result => simp

theorem goesOn_correlateRound {drainStart t : Option DateTime} {pre : List CorrelateCycle} :
    Tape.goesOn (correlateRound http params normalDeadline) drainStart pre = some t ↔
      InTime normalDeadline drainStart pre ∧ (∀ b ∈ pre, scanCycle http params b = none) ∧
        pre.foldl CorrelateCycle.drainStart drainStart = t := by
  induction pre generalizing drainStart with
  | nil => simp [Tape.goesOn, InTime]
  | cons c pre ih =>
    rw [Tape.goesOn_cons_eq_some]
    constructor
    · rintro ⟨m, hround, hpre⟩
      obtain ⟨htime, hscan, rfl⟩ := correlateRound_eq_inr.mp hround
      obtain ⟨htimes, hscans, ht⟩ := ih.mp hpre
      exact ⟨⟨htime, htimes⟩, List.forall_mem_cons.mpr ⟨hscan, hscans⟩, ht⟩
    · rintro ⟨⟨htime, htimes⟩, hscans, ht⟩
      obtain ⟨hscan, hscans⟩ := List.forall_mem_cons.mp hscans
      exact ⟨c.drainStart drainStart, correlateRound_eq_inr.mpr ⟨htime, hscan, rfl⟩,
        ih.mpr ⟨htimes, hscans, ht⟩⟩

theorem correlateRun_eq_ok {started : DateTime} {cycles : List CorrelateCycle} {r : Run} :
    correlateRun http params started cycles = some (.ok r) ↔
      ∃ pre c post, cycles = pre ++ c :: post ∧ (∀ b ∈ pre, scanCycle http params b = none) ∧
        InTime (started + NORMAL_TIMEOUT) none (pre ++ [c]) ∧
        scanCycle http params c = some (.ok r) := by
  rw [correlateRun, Tape.play_eq_some]
  constructor
  · rintro ⟨pre, c, post, t, hcycles, hpre, hstop⟩
    obtain ⟨htimes, hscans, rfl⟩ := goesOn_correlateRound.mp hpre
    refine ⟨pre, c, post, hcycles, hscans, ?_⟩
    unfold correlateRound at hstop
    split at hstop
    · cases hstop
    · next htime =>
      rw [inTime_append]
      refine ⟨⟨htimes, Int.not_le.mp htime, trivial⟩, ?_⟩
      cases hscan : scanCycle http params c with
      | none => simp [hscan] at hstop
      | some result => simpa [hscan] using hstop
  · rintro ⟨pre, c, post, hcycles, hscans, htimes, hscan⟩
    rw [inTime_append] at htimes
    refine ⟨pre, c, post, _, hcycles, goesOn_correlateRound.mpr ⟨htimes.1, hscans, rfl⟩, ?_⟩
    have htime : ¬ computeEffectiveDeadline (started + NORMAL_TIMEOUT)
        (pre.foldl CorrelateCycle.drainStart none) c ≤ c.now := Int.not_le.mpr htimes.2.1
    rw [correlateRound, if_neg htime, hscan]

end Gcit.Github
