import Gcit.Flow.HandleTrigger
import Gcit.Github.Monitor

/-! # The task behind a started run

`run_monitor_with_source` reads the events of the source up to a final one, sends
`RunFinished` for it, and logs how the source ended. A source that ends without a
final event leaves the task nothing to send.
-/

namespace Gcit.Flow

open Std Gcit Gcit.Git Gcit.Poll Gcit.Library Gcit.Github

/-- The update of a reporting task waits for room in the state queue; a closing
task waits for its source. -/
inductive MonitorPc where
  | watching
  | reporting (conclusion : String) (completedAt : DateTime)
  | closing
  deriving DecidableEq

structure MonitorTask where
  params : MonitorParams
  pc : MonitorPc

namespace MonitorTask

def ghParams (m : MonitorTask) : Github.MonitorParams :=
  ⟨m.params.repo, m.params.workflow, m.params.runId, m.params.jobInterval⟩

/-- The task is there to report this run of the flow. -/
def Watches (m : MonitorTask) (flow : String) (runId : UInt64) : Prop :=
  m.params.flowName = flow ∧ m.params.runId = runId ∧ m.pc ≠ .closing

end MonitorTask

def doneSummary (events : List MonitorEvent) : Option RunSummary :=
  events.findSome? fun
    | .done summary => some summary
    | .update _ => none

/-- Where the events of a source that has ended take the task, if it goes on. -/
def afterEvents (events : List MonitorEvent) (now : DateTime) : Option MonitorPc :=
  (doneSummary events).map fun summary =>
    .reporting ((summary.conclusion.map Conclusion.toApi).getD "unknown")
      (summary.completedAt.getD now)

theorem afterEvents_eq_none_iff {events : List MonitorEvent} {now : DateTime} :
    afterEvents events now = none ↔ NoneDone events := by
  rw [afterEvents, Option.map_eq_none_iff, doneSummary, List.findSome?_eq_none_iff]
  constructor
  · intro h summary hmem
    cases h _ hmem
  · intro h event hmem
    cases event with
    | update => rfl
    | done summary => exact absurd hmem (h summary)

theorem afterEvents_ne_closing {events : List MonitorEvent} {now : DateTime} {pc : MonitorPc}
    (h : afterEvents events now = some pc) : pc ≠ .closing := by
  obtain ⟨summary, -, rfl⟩ := Option.map_eq_some_iff.mp h
  simp

theorem afterEvents_of_monitorRun {http : HttpCrate} {params : Github.MonitorParams}
    {cycles : List MonitorCycle} {events : List MonitorEvent} {outcome : MonitorOutcome}
    (h : monitorRun http params cycles = some (events, outcome)) (now : DateTime) :
    afterEvents events now = none ↔ outcome ≠ .terminated := by
  rw [afterEvents_eq_none_iff]
  rcases monitorRun_done h with ⟨houtcome, before, summary, -, rfl⟩ | ⟨houtcome, hnone⟩
  · refine iff_of_false (fun hnone => hnone summary (by simp)) ?_
    exact fun hne => hne houtcome
  · exact iff_of_true hnone houtcome

end Gcit.Flow
