import Mathlib.Data.List.Induction
import Gcit.Github.Correlator

/-! # Whose run the correlator settles on

A scan by name takes the one run that carries the dispatch's own marker. The scan
by commit takes the newest run since the dispatch and looks at no name, so the run
of another dispatch of the same commit is taken too.
-/

namespace Gcit.Github

open Std Gcit Gcit.Git Gcit.Library

/-- The first of the newest runs among those not older than the cutoff. -/
def NewestSince (cutoff : DateTime) (runs : List Run) (r : Run) : Prop :=
  ∃ pre post, runs = pre ++ r :: post ∧ cutoff ≤ r.createdAt ∧
    (∀ x ∈ pre, cutoff ≤ x.createdAt → x.createdAt < r.createdAt) ∧
    ∀ x ∈ post, x.createdAt ≤ r.createdAt

namespace NewestSince

variable {cutoff : DateTime} {runs : List Run} {r r' run : Run}

theorem concat (h : NewestSince cutoff runs r) (hrun : run.createdAt ≤ r.createdAt) :
    NewestSince cutoff (runs ++ [run]) r := by
  obtain ⟨pre, post, rfl, hcut, hpre, hpost⟩ := h
  refine ⟨pre, post ++ [run], by simp, hcut, hpre, ?_⟩
  intro x hx
  rcases List.mem_append.mp hx with hx | hx
  · exact hpost x hx
  · exact List.mem_singleton.mp hx ▸ hrun

theorem mem (h : NewestSince cutoff runs r) : r ∈ runs := by
  obtain ⟨pre, post, rfl, -⟩ := h
  simp

theorem since (h : NewestSince cutoff runs r) : cutoff ≤ r.createdAt := by
  obtain ⟨pre, post, -, hcut, -⟩ := h
  exact hcut

theorem le (h : NewestSince cutoff runs r) {x : Run} (hx : x ∈ runs) (hcut : cutoff ≤ x.createdAt) :
    x.createdAt ≤ r.createdAt := by
  obtain ⟨pre, post, rfl, -, hpre, hpost⟩ := h
  rcases List.mem_append.mp hx with hx | hx
  · exact Int.le_of_lt (hpre x hx hcut)
  · rcases List.mem_cons.mp hx with rfl | hx
    · exact Int.le_refl _
    · exact hpost x hx

theorem not_before (h : NewestSince cutoff runs r) {pre post : List Run}
    (hruns : runs = pre ++ r' :: post) (hpre : ∀ x ∈ pre, cutoff ≤ x.createdAt →
      x.createdAt < r'.createdAt) (hcut : cutoff ≤ r'.createdAt) : r ∉ pre := by
  intro hmem
  have hlt := hpre r hmem h.since
  have hle := h.le (hruns ▸ by simp : r' ∈ runs) hcut
  exact absurd (Int.lt_of_lt_of_le hlt hle) (Int.lt_irrefl _)

theorem unique (h : NewestSince cutoff runs r) (h' : NewestSince cutoff runs r') : r = r' := by
  obtain ⟨pre, post, hruns, hcut, hpre, hpost⟩ := h
  obtain ⟨pre', post', hruns', hcut', hpre', hpost'⟩ := h'
  have hnot := not_before ⟨pre, post, hruns, hcut, hpre, hpost⟩ hruns' hpre' hcut'
  have hnot' := not_before ⟨pre', post', hruns', hcut', hpre', hpost'⟩ hruns hpre hcut
  -- neither of the two stands before the other
  rw [hruns] at hruns'
  rcases List.append_eq_append_iff.mp hruns' with ⟨mid, rfl, hmid⟩ | ⟨mid, rfl, hmid⟩
  · cases mid with
    | nil => exact (List.cons.inj hmid).1
    | cons x mid =>
      obtain ⟨rfl, -⟩ := List.cons.inj hmid
      exact absurd (by simp) hnot
  · cases mid with
    | nil => exact (List.cons.inj hmid).1.symm
    | cons x mid =>
      obtain ⟨rfl, -⟩ := List.cons.inj hmid
      exact absurd (by simp) hnot'

end NewestSince

theorem newer_of_lt {cutoff : DateTime} {run : Run} (h : run.createdAt < cutoff)
    (newest : Option Run) : newer cutoff newest run = newest := if_pos h

theorem newer_none {cutoff : DateTime} {run : Run} (h : ¬ run.createdAt < cutoff) :
    newer cutoff none run = some run := if_neg h

theorem newer_some {cutoff : DateTime} {run : Run} (h : ¬ run.createdAt < cutoff) (prev : Run) :
    newer cutoff (some prev) run =
      if prev.createdAt < run.createdAt then some run else some prev := if_neg h

theorem foldl_newer_eq_none {cutoff : DateTime} {runs : List Run} :
    runs.foldl (newer cutoff) none = none ↔ ∀ x ∈ runs, x.createdAt < cutoff := by
  induction runs using List.reverseRecOn with
  | nil => simp
  | append_singleton runs run ih =>
    rw [List.foldl_append, List.foldl_cons, List.foldl_nil]
    by_cases hrun : run.createdAt < cutoff
    · simp [newer_of_lt hrun, ih, or_imp, forall_and, hrun]
    · refine iff_of_false ?_ fun h => hrun (h run (by simp))
      cases runs.foldl (newer cutoff) none with
      | none => simp [newer_none hrun]
      | some prev =>
        rw [newer_some hrun]
        split <;> simp

theorem newestSince_of_foldl {cutoff : DateTime} {runs : List Run} {r : Run}
    (h : runs.foldl (newer cutoff) none = some r) : NewestSince cutoff runs r := by
  induction runs using List.reverseRecOn generalizing r with
  | nil => cases h
  | append_singleton runs run ih =>
    rw [List.foldl_append, List.foldl_cons, List.foldl_nil] at h
    by_cases hrun : run.createdAt < cutoff
    · rw [newer_of_lt hrun] at h
      have hr := ih h
      exact hr.concat (Int.le_of_lt (Int.lt_of_lt_of_le hrun hr.since))
    · cases hfold : runs.foldl (newer cutoff) none with
      | none =>
        rw [hfold, newer_none hrun] at h
        cases h
        refine ⟨runs, [], rfl, Int.not_lt.mp hrun, ?_, nofun⟩
        intro x hx hxcut
        exact absurd (foldl_newer_eq_none.mp hfold x hx) (Int.not_lt.mpr hxcut)
      | some prev =>
        rw [hfold, newer_some hrun] at h
        have hp := ih hfold
        split at h
        · next hlt =>
          cases h
          refine ⟨runs, [], rfl, Int.not_lt.mp hrun, ?_, nofun⟩
          intro x hx hxcut
          exact Int.lt_of_le_of_lt (hp.le hx hxcut) hlt
        · next hle =>
          cases h
          exact hp.concat (Int.not_lt.mp hle)

theorem foldl_newer_eq_some {cutoff : DateTime} {runs : List Run} {r : Run} :
    runs.foldl (newer cutoff) none = some r ↔ NewestSince cutoff runs r := by
  refine ⟨newestSince_of_foldl, ?_⟩
  intro hr
  cases hfold : runs.foldl (newer cutoff) none with
  | none => exact absurd (foldl_newer_eq_none.mp hfold r hr.mem) (Int.not_lt.mpr hr.since)
  | some r' => rw [hr.unique (newestSince_of_foldl hfold)]

section Scan

variable (http : HttpCrate) (params : CorrelateParams)

def carriesOwn (run : Run) : Bool := contains run.name (marker params.gcitRunId)

/-- One listed run carries the dispatch's own marker. -/
def OnlyNamed (server : Server) (r : Run) : Prop :=
  ∃ runs, listRuns http params none server = .ok runs ∧ runs.filter (carriesOwn params) = [r]

/-- No listed run carries it, or the listing failed in a way that may pass. -/
def NoneNamed (server : Server) : Prop :=
  (∃ runs, listRuns http params none server = .ok runs ∧ runs.filter (carriesOwn params) = []) ∨
    ∃ e, listRuns http params none server = .error e ∧ e.isTransient = true

def NewestOfCommit (server : Server) (r : Run) : Prop :=
  ∃ runs, listRuns http params (some params.headSha) server = .ok runs ∧
    NewestSince (cutoff params) runs r

/-- No run listed for the commit is recent enough, or the listing failed in a way
that may pass. -/
def NoneOfCommit (server : Server) : Prop :=
  (∃ runs, listRuns http params (some params.headSha) server = .ok runs ∧
    ∀ run ∈ runs, run.createdAt < cutoff params) ∨
    ∃ e, listRuns http params (some params.headSha) server = .error e ∧ e.isTransient = true

def Undecided (c : CorrelateCycle) : Prop :=
  NoneNamed http params c.names ∧
    (params.runNameConfigured = some true ∨ NoneOfCommit http params c.fallback)

variable {http params} {server : Server} {r : Run} {c : CorrelateCycle}

theorem scanNameMatch_eq_ok {found : Option Run} :
    scanNameMatch http params server = .ok found ↔
      match found with
      | some r => OnlyNamed http params server r
      | none => NoneNamed http params server := by
  unfold scanNameMatch scanRunsForMatch OnlyNamed NoneNamed
  cases hlist : listRuns http params none server with
  | error e =>
    by_cases he : e.isTransient = true <;> cases found <;> simp [Except.map, he]
  | ok runs =>
    simp only [Except.map, Except.ok.injEq, exists_eq_left']
    rw [show (fun run => contains run.name (marker params.gcitRunId)) = carriesOwn params from rfl]
    match runs.filter (carriesOwn params) with
    | [] => cases found <;> simp
    | [run] => cases found <;> simp
    | _ :: _ :: _ => cases found <;> simp

theorem scanNameMatch_eq_some :
    scanNameMatch http params server = .ok (some r) ↔ OnlyNamed http params server r :=
  scanNameMatch_eq_ok

theorem scanNameMatch_eq_none :
    scanNameMatch http params server = .ok none ↔ NoneNamed http params server :=
  scanNameMatch_eq_ok

theorem scanHeadShaFallback_eq_ok {found : Option Run} :
    scanHeadShaFallback http params server = .ok found ↔
      match found with
      | some r => NewestOfCommit http params server r
      | none => NoneOfCommit http params server := by
  unfold scanHeadShaFallback scanRunsForFallback NewestOfCommit NoneOfCommit
  cases hlist : listRuns http params (some params.headSha) server with
  | error e =>
    by_cases he : e.isTransient = true <;> cases found <;> simp [Except.map, he]
  | ok runs =>
    cases found with
    | none => simp [Except.map, foldl_newer_eq_none]
    | some r => simp [Except.map, foldl_newer_eq_some]

theorem scanHeadShaFallback_eq_some :
    scanHeadShaFallback http params server = .ok (some r) ↔ NewestOfCommit http params server r :=
  scanHeadShaFallback_eq_ok

theorem scanHeadShaFallback_eq_none :
    scanHeadShaFallback http params server = .ok none ↔ NoneOfCommit http params server :=
  scanHeadShaFallback_eq_ok

theorem scanCycle_eq_none : scanCycle http params c = none ↔ Undecided http params c := by
  rw [Undecided, ← scanNameMatch_eq_none, ← scanHeadShaFallback_eq_none, scanCycle]
  match scanNameMatch http params c.names with
  | .error e => simp
  | .ok (some run) => simp
  | .ok none =>
    by_cases hconf : params.runNameConfigured = some true
    · simp [hconf]
    · match scanHeadShaFallback http params c.fallback with
      | .error e => simp [hconf]
      | .ok (some run) => simp [hconf]
      | .ok none => simp [hconf]

theorem scanCycle_eq_ok :
    scanCycle http params c = some (.ok r) ↔ OnlyNamed http params c.names r ∨
      NoneNamed http params c.names ∧ params.runNameConfigured ≠ some true ∧
        NewestOfCommit http params c.fallback r := by
  rw [← scanNameMatch_eq_some, ← scanNameMatch_eq_none, ← scanHeadShaFallback_eq_some, scanCycle]
  match scanNameMatch http params c.names with
  | .error e => simp
  | .ok (some run) => simp
  | .ok none =>
    by_cases hconf : params.runNameConfigured = some true
    · simp [hconf]
    · match scanHeadShaFallback http params c.fallback with
      | .error e => simp [hconf]
      | .ok (some run) => simp [hconf]
      | .ok none => simp [hconf]

end Scan

def carriesMarker (other : Uuid) (run : Run) : Bool := contains run.name (marker other)

/-- The run this cycle would settle on does not carry the other dispatch's marker:
neither the one run with the own marker nor, when there is none and the name is
not known to be configured, the newest run of the commit. -/
def PassesOver (http : HttpCrate) (params : CorrelateParams) (other : Uuid) (c : CorrelateCycle) : Prop :=
  (∀ r, OnlyNamed http params c.names r → carriesMarker other r = false) ∧
    (NoneNamed http params c.names → params.runNameConfigured ≠ some true →
      ∀ r, NewestOfCommit http params c.fallback r → carriesMarker other r = false)

/-- Whatever the server lists over time: the correlator never settles on a run
with the marker of another dispatch if and only if the first cycle that is not
undecided, if it comes in time, passes such runs over. -/
theorem other_run_never_claimed_iff (http : HttpCrate) (params : CorrelateParams) (other : Uuid)
    (started : DateTime) (cycles : List CorrelateCycle) :
    (∀ r, correlateRun http params started cycles = some (.ok r) → carriesMarker other r = false) ↔
      ∀ pre c post, cycles = pre ++ c :: post → (∀ b ∈ pre, Undecided http params b) →
        InTime (started + NORMAL_TIMEOUT) none (pre ++ [c]) → PassesOver http params other c := by
  simp only [← scanCycle_eq_none]
  constructor
  · intro h pre c post hcycles hpre htime
    have hfound : ∀ r, scanCycle http params c = some (.ok r) → carriesMarker other r = false := by
      intro r hscan
      exact h r (correlateRun_eq_ok.mpr ⟨pre, c, post, hcycles, hpre, htime, hscan⟩)
    constructor
    · intro r hr
      exact hfound r (scanCycle_eq_ok.mpr (.inl hr))
    · intro hnone hconf r hr
      exact hfound r (scanCycle_eq_ok.mpr (.inr ⟨hnone, hconf, hr⟩))
  · intro h r hr
    obtain ⟨pre, c, post, hcycles, hpre, htime, hscan⟩ := correlateRun_eq_ok.mp hr
    obtain ⟨hnamed, hnewest⟩ := h pre c post hcycles hpre htime
    rcases scanCycle_eq_ok.mp hscan with hr | ⟨hnone, hconf, hr⟩
    · exact hnamed r hr
    · exact hnewest hnone hconf r hr

def Uuid.repeated (n : Fin 16) : Uuid := ⟨List.replicate 32 n, by simp⟩

/-- The parser accepts every route of the fixed runs. -/
def plainHttp : HttpCrate := ⟨fun _ => .ok ()⟩

/-- A dispatch of the workflow on `main` at time zero, as the executor makes one. -/
def mainParams (gcitRunId : Uuid) (headSha : String) : CorrelateParams where
  repo := "owner/repo"
  workflow := "ci.yml"
  gcitRunId := gcitRunId
  branch := "main"
  headSha := headSha
  dispatchedAt := 0
  runNameConfigured := none

def mainRun (id : UInt64) (name headSha : String) (createdAt : DateTime) : Run where
  id := id
  name := name
  event := "workflow_dispatch"
  headBranch := "main"
  headSha := headSha
  htmlUrl := "https://github.com/owner/repo/actions/runs/1"
  runNumber := 1
  status := "queued"
  conclusion := none
  createdAt := createdAt
  updatedAt := createdAt

def onePage (now : DateTime) (runs : List Run) : CorrelateCycle where
  cancelled := false
  onset := now
  now := now
  cancelledAtTimeout := false
  names := fun _ _ => .ok ⟨runs, none⟩
  fallback := fun _ _ => .ok ⟨runs, none⟩

/-- Two dispatches of one commit: the run of the second is listed first, and the
first one takes it. -/
theorem fallback_claims_other_run :
    Uuid.repeated 1 ≠ Uuid.repeated 2 ∧
      ∃ r, correlateRun plainHttp (mainParams (.repeated 1) "aa") 0
          [onePage 1 [mainRun 7 (marker (.repeated 2)) "aa" 1]] = some (.ok r) ∧
        r.id = 7 ∧ carriesMarker (.repeated 2) r = true := by
  exact ⟨by decide, _, rfl, by decide, by decide⟩

end Gcit.Github
