import Gcit.Config.Template
import Gcit.Flow.HandleTrigger

/-! # The data that templates render against

Templates see the trigger and the run as one JSON object. The templates of single
jobs see the job as well. Along which paths the data is reached does not depend on
what it says, and the probe that validation renders against has the keys of the
data for a job.
-/

namespace Gcit.Notify

open Gcit Gcit.Git Gcit.Flow Gcit.Github Gcit.Library Gcit.Library.Json Gcit.Validate

/-- Of a job what templates and messages show; its times and steps are left out. -/
structure JobResult where
  jobId : UInt64
  name : String
  htmlUrl : String
  conclusion : Option Conclusion
  runAttempt : UInt32

def labelFor : Conclusion → String
  | .success => "success"
  | .skipped => "skipped"
  | .neutral => "neutral"
  | .failure => "failure"
  | .timedOut => "timed out"
  | .cancelled => "cancelled"
  | .actionRequired => "action required"
  | .unknown => "unknown"

def runStatusLabel : RunStatus → String
  | .queued => "queued"
  | .inProgress => "in progress"
  | .completed => "completed"
  | .waiting => "waiting"
  | .unknown => "unknown"

def conclusionLabel (default_ : String) (conclusion : Option Conclusion) : String :=
  (conclusion.map labelFor).getD default_

def emptyRunSummary (runId : UInt64) : RunSummary where
  runId := runId
  runUrl := ""
  runNumber := 0
  runAttempt := 1
  status := .queued
  conclusion := none
  startedAt := none
  completedAt := none

/-- `Map::insert` into members that ascend by key. -/
def insertMember (key : String) (value : Json) : List (String × Json) → List (String × Json)
  | [] => [(key, value)]
  | (k, v) :: members =>
    if key < k then (key, value) :: (k, v) :: members
    else if key = k then (key, value) :: members
    else (k, v) :: insertMember key value members

theorem filter_insertMember {key : String} (value : Json) {members : List (String × Json)}
    (h : ∀ f ∈ members, f.1 ≠ key) :
    (insertMember key value members).filter (fun f => f.1 != key) = members := by
  induction members with
  | nil => simp [insertMember]
  | cons f members ih =>
    obtain ⟨k, v⟩ := f
    have hk : k ≠ key := h (k, v) List.mem_cons_self
    have hrest : ∀ f ∈ members, f.1 ≠ key := fun f hf => h f (List.mem_cons_of_mem _ hf)
    have hfilter : members.filter (fun f => f.1 != key) = members :=
      List.filter_eq_self.mpr fun f hf => by simpa using hrest f hf
    rw [insertMember]
    split
    · simp [hk, hfilter]
    · rw [if_neg hk.symm, List.filter_cons_of_pos (by simpa using hk), ih hrest]

variable (rfc3339 : DateTime → String)

def renderContext (ctx : RunContext) (summary : RunSummary) : Json := .object [
  ("action", .object [
    ("dispatched_at", .string (rfc3339 ctx.action.dispatchedAt)),
    ("repo", .string ctx.action.repo),
    ("run_id", .number ctx.action.runId.toNat),
    ("run_url", .string ctx.action.runUrl),
    ("workflow", .string ctx.action.workflow)]),
  ("flow", .object [
    ("description", .string (ctx.flowDescription.getD "")),
    ("name", .string ctx.flowName)]),
  ("gcit", .object [("run_id", .string ctx.gcitRunId.toText)]),
  ("run", .object [
    ("conclusion", .string (conclusionLabel "(in progress)" summary.conclusion)),
    ("status", .string (runStatusLabel summary.status))]),
  ("source", .object [
    ("ref_name", .string ctx.source.refName),
    ("sha", .string ctx.source.sha.toHex),
    ("sha_short", .string ctx.source.shaShort),
    ("url", .string ctx.source.url)])]

def jobValue (job : JobResult) : Json := .object [
  ("attempt", .number job.runAttempt.toNat),
  ("conclusion", .string (conclusionLabel "in progress" job.conclusion)),
  ("id", .number job.jobId.toNat),
  ("name", .string job.name),
  ("url", .string job.htmlUrl)]

def renderContextWithJob (ctx : RunContext) (summary : RunSummary) (job : JobResult) : Json :=
  match renderContext rfc3339 ctx summary with
  | .object members => .object (insertMember "job" (jobValue job) members)
  | base => base

variable {rfc3339}

theorem isSome_follow_renderContextWithJob (ctx : RunContext) (summary : RunSummary)
    (job : JobResult) (path : List String) :
    ((renderContextWithJob rfc3339 ctx summary job).follow path).isSome =
      (probeContext.follow path).isSome := by
  refine isSome_follow_congr ?_ path
  simp only [renderContextWithJob, renderContext, insertMember, String.reduceLT, String.reduceEq,
    if_true, if_false]
  rfl

theorem isSome_follow_renderContext (ctx : RunContext) (summary : RunSummary)
    (path : List String) :
    ((renderContext rfc3339 ctx summary).follow path).isSome = true ↔
      (probeContext.follow path).isSome = true ∧ path.head? ≠ some "job" := by
  obtain ⟨members, hmembers, hkeys⟩ : ∃ members,
      renderContext rfc3339 ctx summary = .object members ∧ ∀ f ∈ members, f.1 ≠ "job" :=
    ⟨_, rfl, by simp⟩
  have hjob : ((renderContextWithJob rfc3339 ctx summary ⟨0, "", "", none, 0⟩).follow path).isSome =
      (probeContext.follow path).isSome := isSome_follow_renderContextWithJob _ _ _ _
  rw [renderContextWithJob, hmembers] at hjob
  rw [← hjob, hmembers, ← isSome_follow_erase, filter_insertMember _ hkeys]

end Gcit.Notify
