import Gcit.Github.Markers

/-! # What a scan makes of the pages

A listing that grows between two page requests shows a run on two pages. The scan
by name counts entries, not runs. Its transient errors count as no match, and the
scan by commit follows either.
-/

namespace Gcit.Github

open Std Gcit Gcit.Git Gcit.Library

section Duplicates

variable (http : HttpCrate) (params : CorrelateParams)

def Matching (server : Server) (matches_ : List Run) : Prop :=
  ∃ runs, listRuns http params none server = .ok runs ∧ runs.filter (carriesOwn params) = matches_

def resultOf : List Run → ScanResult
  | [] => .noMatch
  | [run] => .singleMatch run
  | matches_ => .duplicateMatch (matches_.map Run.id)

structure DuplicatesAreRuns (server : Server) : Prop where
  two : ∀ ids, scanRunsForMatch http params server = .ok (.duplicateMatch ids) →
    ∃ matches_, Matching http params server matches_ ∧
      ∃ run ∈ matches_, ∃ other ∈ matches_, run.id ≠ other.id
  one : ∀ run rest, Matching http params server (run :: rest) → (∀ other ∈ rest, other.id = run.id) →
    ∃ found, scanRunsForMatch http params server = .ok (.singleMatch found) ∧ found.id = run.id

/-- Matching entries beyond the first are not all repetitions of it. -/
def NoneRepeated (server : Server) : Prop :=
  ∀ run next rest, Matching http params server (run :: next :: rest) →
    ∃ other ∈ next :: rest, other.id ≠ run.id

variable {http params} {server : Server}

theorem scanRunsForMatch_of_matching {matches_ : List Run} (h : Matching http params server matches_) :
    scanRunsForMatch http params server = .ok (resultOf matches_) := by
  obtain ⟨runs, hruns, rfl⟩ := h
  rw [scanRunsForMatch, hruns]
  rfl

theorem matching_of_scan {result : ScanResult}
    (h : scanRunsForMatch http params server = .ok result) :
    ∃ matches_, Matching http params server matches_ := by
  unfold scanRunsForMatch at h
  cases hlist : listRuns http params none server with
  | error e =>
    rw [hlist] at h
    cases h
  | ok runs => exact ⟨_, runs, hlist, rfl⟩

/-- For every sequence of pages: a duplicate means two runs, and one run listed
alone or again is found, if and only if no entry is a mere repetition. -/
theorem duplicates_are_runs_iff (http : HttpCrate) (params : CorrelateParams) (server : Server) :
    DuplicatesAreRuns http params server ↔ NoneRepeated http params server := by
  constructor
  · intro h run next rest hmatching
    by_contra hsame
    push Not at hsame
    obtain ⟨found, hscan, -⟩ := h.one run (next :: rest) hmatching hsame
    rw [scanRunsForMatch_of_matching hmatching] at hscan
    cases hscan
  · intro h
    constructor
    · intro ids hscan
      obtain ⟨matches_, hmatching⟩ := matching_of_scan hscan
      rw [scanRunsForMatch_of_matching hmatching] at hscan
      match matches_, hmatching, hscan with
      | run :: next :: rest, hmatching, _ =>
        obtain ⟨other, hother, hne⟩ := h run next rest hmatching
        exact ⟨_, hmatching, run, List.mem_cons_self, other, List.mem_cons_of_mem run hother, hne.symm⟩
    · intro run rest hmatching hsame
      cases rest with
      | nil => exact ⟨run, scanRunsForMatch_of_matching hmatching, rfl⟩
      | cons next rest =>
        obtain ⟨other, hother, hne⟩ := h run next rest hmatching
        exact absurd (hsame other hother) hne

/-- Between the requests a run was inserted at the top, and the one run that
matches is the last of the first page and the first of the second. -/
def shiftedPages : Server := fun number _ =>
  let own := mainRun 7 (marker (.repeated 1)) "aa" 1
  if number = 0 then .ok ⟨[mainRun 6 "other" "aa" 1, own], some "page=2"⟩ else .ok ⟨[own], none⟩

theorem shifted_run_is_duplicate :
    scanRunsForMatch plainHttp (mainParams (.repeated 1) "aa") shiftedPages =
      .ok (.duplicateMatch [7, 7]) ∧
    ¬ DuplicatesAreRuns plainHttp (mainParams (.repeated 1) "aa") shiftedPages := by
  have hscan : scanRunsForMatch plainHttp (mainParams (.repeated 1) "aa") shiftedPages =
      .ok (.duplicateMatch [7, 7]) := rfl
  refine ⟨hscan, fun h => ?_⟩
  let own := mainRun 7 (marker (.repeated 1)) "aa" 1
  have hmatching : Matching plainHttp (mainParams (.repeated 1) "aa") shiftedPages [own, own] :=
    ⟨_, rfl, rfl⟩
  obtain ⟨found, hfound, -⟩ := h.one own [own] hmatching (by simp)
  rw [hscan] at hfound
  cases hfound

end Duplicates

section Fallback

inductive Scan where
  | names
  | headSha
  deriving DecidableEq, Repr

variable (http : HttpCrate) (params : CorrelateParams)

def loggedCycle (c : CorrelateCycle) : List Scan × Option (Except CorrelationError Run) :=
  match scanNameMatch http params c.names with
  | .error e => ([.names], some (.error e))
  | .ok (some run) => ([.names], some (.ok run))
  | .ok none =>
    if params.runNameConfigured = some true then ([.names], none)
    else ([.names, .headSha], match scanHeadShaFallback http params c.fallback with
      | .error e => some (.error e)
      | .ok (some run) => some (.ok run)
      | .ok none => none)

/-- The scans of a round: none when it comes too late. -/
def scansOf (normalDeadline : DateTime) (drainStart : Option DateTime) (c : CorrelateCycle) :
    List Scan :=
  if computeEffectiveDeadline normalDeadline drainStart c ≤ c.now then []
  else (loggedCycle http params c).1

def CleanMiss (server : Server) : Prop :=
  ∃ runs, listRuns http params none server = .ok runs ∧ runs.filter (carriesOwn params) = []

def CutOff (server : Server) : Prop :=
  ∃ e, listRuns http params none server = .error e ∧ e.isTransient = true

def correlateRounds (started : DateTime) (cycles : List CorrelateCycle) :
    List (Option DateTime × CorrelateCycle) :=
  Tape.rounds (correlateRound http params (started + NORMAL_TIMEOUT)) none cycles

/-- A scan by commit, and a run it finds, come in a round only where the given
condition holds of the round's scan by name. -/
structure FallbackOnly (started : DateTime) (cycles : List CorrelateCycle)
    (miss : Server → Prop) : Prop where
  consulted : ∀ r ∈ correlateRounds http params started cycles,
    .headSha ∈ scansOf http params (started + NORMAL_TIMEOUT) r.1 r.2 → miss r.2.names
  returned : ∀ r ∈ correlateRounds http params started cycles, ∀ run,
    correlateRound http params (started + NORMAL_TIMEOUT) r.1 r.2 = .inl (.ok run) →
    OnlyNamed http params r.2.names run ∨
      miss r.2.names ∧ NewestOfCommit http params r.2.fallback run

variable {http params}

theorem loggedCycle_snd (c : CorrelateCycle) :
    (loggedCycle http params c).2 = scanCycle http params c := by
  unfold loggedCycle scanCycle
  match scanNameMatch http params c.names with
  | .error e => rfl
  | .ok (some run) => rfl
  | .ok none =>
    by_cases hconf : params.runNameConfigured = some true
    · simp [hconf]
    · exact (congrArg Prod.snd (if_neg hconf)).trans (if_neg hconf).symm

theorem headSha_mem_loggedCycle {c : CorrelateCycle} :
    .headSha ∈ (loggedCycle http params c).1 ↔
      NoneNamed http params c.names ∧ params.runNameConfigured ≠ some true := by
  rw [← scanNameMatch_eq_none, loggedCycle]
  match scanNameMatch http params c.names with
  | .error e => simp
  | .ok (some run) => simp
  | .ok none =>
    by_cases hconf : params.runNameConfigured = some true <;> simp [hconf]

theorem noneNamed_iff {server : Server} :
    NoneNamed http params server ↔ CleanMiss http params server ∨ CutOff http params server := Iff.rfl

theorem scanCycle_of_round {normalDeadline : DateTime} {drainStart : Option DateTime}
    {c : CorrelateCycle} {run : Run}
    (h : correlateRound http params normalDeadline drainStart c = .inl (.ok run)) :
    scanCycle http params c = some (.ok run) := by
  unfold correlateRound at h
  split at h
  · cases h
  · cases hscan : scanCycle http params c with
    | none => simp [hscan] at h
    | some result => simpa [hscan] using h

/-- For every sequence of page results: a round consults the scan by commit only
if its own scan by name read every page without a match or was cut off by an error
that may pass, and the run's name is not known to be configured. -/
theorem fallback_after_miss (http : HttpCrate) (params : CorrelateParams) (started : DateTime)
    (cycles : List CorrelateCycle) :
    FallbackOnly http params started cycles fun server => params.runNameConfigured ≠ some true ∧
      (CleanMiss http params server ∨ CutOff http params server) := by
  constructor
  · rintro ⟨drainStart, c⟩ - hscan
    unfold scansOf at hscan
    split at hscan
    · cases hscan
    · obtain ⟨hnone, hconf⟩ := headSha_mem_loggedCycle.mp hscan
      exact ⟨hconf, noneNamed_iff.mp hnone⟩
  · rintro ⟨drainStart, c⟩ - run hreturned
    rcases scanCycle_eq_ok.mp (scanCycle_of_round hreturned) with hnamed | ⟨hnone, hconf, hnewest⟩
    · exact .inl hnamed
    · exact .inr ⟨⟨hconf, noneNamed_iff.mp hnone⟩, hnewest⟩

/-- The first page of names shows the own run, the second fails for now; the
listing for the commit shows a newer run of another dispatch. -/
def cutOffCycle : CorrelateCycle where
  cancelled := false
  onset := 1
  now := 1
  cancelledAtTimeout := false
  names := fun number _ =>
    if number = 0 then .ok ⟨[mainRun 7 (marker (.repeated 1)) "aa" 1], some "page=2"⟩
    else .error (.serverError 502 SERVER_ERROR_MAX_ATTEMPTS)
  fallback := fun _ _ => .ok ⟨[mainRun 8 (marker (.repeated 2)) "aa" 2], none⟩

theorem fallback_after_error :
    (∃ run, correlateRun plainHttp (mainParams (.repeated 1) "aa") 0 [cutOffCycle] = some (.ok run) ∧
      run.id = 8) ∧
    ¬ FallbackOnly plainHttp (mainParams (.repeated 1) "aa") 0 [cutOffCycle]
      (CleanMiss plainHttp (mainParams (.repeated 1) "aa")) := by
  refine ⟨⟨_, rfl, rfl⟩, fun h => ?_⟩
  have hround : (none, cutOffCycle) ∈
      correlateRounds plainHttp (mainParams (.repeated 1) "aa") 0 [cutOffCycle] := List.mem_cons_self
  obtain ⟨runs, hruns, -⟩ := h.consulted _ hround (by decide)
  cases hruns

end Fallback

end Gcit.Github
