import Gcit.Github.Correlator

/-! # Watching a run

`monitor_run` polls the run and its jobs until the run is terminal, a request
fails for good, nobody listens any more or the token is cancelled. The cycles come
as a tape, with the classified answers to the requests of each. Of the jobs only
the attempt number goes into what this side keeps.
-/

namespace Gcit.Github

open Std Gcit Gcit.Git Gcit.Library

def Conclusion.toApi : Conclusion → String
  | .success => "success"
  | .skipped => "skipped"
  | .neutral => "neutral"
  | .failure => "failure"
  | .timedOut => "timed_out"
  | .cancelled => "cancelled"
  | .actionRequired => "action_required"
  | .unknown => "unknown"

theorem Conclusion.fromApi_toApi (c : Conclusion) : fromApi c.toApi = c := by
  cases c <;> decide

def RunStatus.isTerminal (status : RunStatus) : Bool := decide (status = .completed)

structure MonitorParams where
  repo : String
  workflow : String
  runId : UInt64
  jobInterval : Duration

inductive MonitorEvent where
  | update (summary : RunSummary)
  | done (summary : RunSummary)
  deriving DecidableEq

inductive MonitorOutcome where
  | terminated
  | receiverDropped
  | drainedMidRun
  | failed (error : GithubErrorKind)
  deriving DecidableEq

structure MonitorCycle where
  snapshot : RateLimitSnapshot
  checkedAt : DateTime
  cancelWins : Bool
  run : Except GithubErrorKind Run
  /-- The attempt numbers of the jobs that `list_all_jobs` collects. -/
  jobs : Except GithubErrorKind (List Nat)
  received : Bool
  cancelled : Bool

variable (http : HttpCrate) (params : MonitorParams)

def uriOrUnknown (path : String) : Except GithubErrorKind String :=
  match http.uriParse path with
  | .ok () => .ok path
  | .error e => .error (.unknown ("monitor URI invalid: " ++ e))

def pollOne (c : MonitorCycle) : Except GithubErrorKind RunSummary := do
  let (owner, repo) ← splitRepo params.repo
  let path := "/repos/" ++ owner ++ "/" ++ repo ++ "/actions/runs/" ++ toString params.runId
  let _ ← uriOrUnknown http path
  let run ← c.run
  let _ ← uriOrUnknown http (path ++ "/jobs?filter=latest&per_page=100")
  let attempts ← c.jobs
  let summary := runToSummary run
  return { summary with runAttempt := attempts.max?.getD summary.runAttempt }

def nextTick (events : List MonitorEvent) (c : MonitorCycle) :
    List MonitorEvent × MonitorOutcome ⊕ List MonitorEvent :=
  if c.cancelled then .inl (events, .drainedMidRun) else .inr events

def monitorRound (events : List MonitorEvent) (c : MonitorCycle) :
    List MonitorEvent × MonitorOutcome ⊕ List MonitorEvent :=
  if (c.snapshot.shouldDefer c.checkedAt).isSome ∧ c.cancelWins = true then
    .inl (events, .drainedMidRun)
  else match pollOne http params c with
    | .ok summary =>
      if c.received then
        if summary.status.isTerminal then .inl (events ++ [.done summary], .terminated)
        else nextTick (events ++ [.update summary]) c
      else .inl (events, .receiverDropped)
    | .error e => if e.isTransient then nextTick events c else .inl (events, .failed e)

/-- The events sent and the outcome, once the cycles so far have brought one. -/
def monitorRun (cycles : List MonitorCycle) : Option (List MonitorEvent × MonitorOutcome) :=
  Tape.play (monitorRound http params) [] cycles

variable {http params}

def NoneDone (events : List MonitorEvent) : Prop := ∀ summary, .done summary ∉ events

theorem NoneDone.concat_update {events : List MonitorEvent} (h : NoneDone events)
    (summary : RunSummary) : NoneDone (events ++ [.update summary]) := by
  intro s hs
  simp only [List.mem_append, List.mem_singleton, reduceCtorEq, or_false] at hs
  exact h s hs

theorem noneDone_of_round {events events' : List MonitorEvent} {c : MonitorCycle}
    (h : NoneDone events) (hround : monitorRound http params events c = .inr events') :
    NoneDone events' := by
  unfold monitorRound nextTick at hround
  repeat' split at hround
  all_goals cases hround
  · exact h.concat_update _
  · exact h

theorem monitorRound_eq_inl {events events' : List MonitorEvent} {outcome : MonitorOutcome}
    {c : MonitorCycle} (h : NoneDone events)
    (hround : monitorRound http params events c = .inl (events', outcome)) :
    (outcome = .terminated ∧ ∃ summary, events' = events ++ [.done summary]) ∨
      (outcome ≠ .terminated ∧ NoneDone events') := by
  unfold monitorRound nextTick at hround
  repeat' split at hround
  all_goals cases hround
  · exact .inr ⟨nofun, h⟩
  · exact .inl ⟨rfl, _, rfl⟩
  · exact .inr ⟨nofun, h.concat_update _⟩
  · exact .inr ⟨nofun, h⟩
  · exact .inr ⟨nofun, h⟩
  · exact .inr ⟨nofun, h⟩

/-- A final event is sent exactly if the outcome is `Terminated`, and it comes last. -/
theorem monitorRun_done {cycles : List MonitorCycle} {events : List MonitorEvent}
    {outcome : MonitorOutcome} (h : monitorRun http params cycles = some (events, outcome)) :
    (outcome = .terminated ∧ ∃ before summary, NoneDone before ∧ events = before ++ [.done summary]) ∨
      (outcome ≠ .terminated ∧ NoneDone events) := by
  obtain ⟨pre, c, post, before, -, hpre, hstop⟩ := Tape.play_eq_some.mp h
  have hbefore : NoneDone before :=
    Tape.goesOn_invariant (fun _ _ _ hs hr => noneDone_of_round hs hr) (fun _ => List.not_mem_nil) hpre
  rcases monitorRound_eq_inl hbefore hstop with ⟨rfl, summary, rfl⟩ | hends
  · exact .inl ⟨rfl, before, summary, hbefore, rfl⟩
  · exact .inr hends

end Gcit.Github
