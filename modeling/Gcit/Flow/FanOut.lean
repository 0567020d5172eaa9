import Mathlib.Data.Finset.Empty
import Mathlib.Data.Finset.Lattice.Basic
import Mathlib.Data.Finset.Dedup
import Mathlib.Data.List.Perm.Basic
import Gcit.Library.Transition
import Gcit.Flow.Monitor
import Gcit.Notify.Rendering

/-! # What a watched run tells the notifiers

`run_monitor_with_source` once more, with its notifiers: the tasks that it spawns for
the jobs that became terminal and for the run, which start and finish in any order, and
the report to the state writer after all of them. A notifier is its place in the list,
and the source's events come in as a tape that ends where the source does.
-/

namespace Gcit.Flow

open Gcit Gcit.Git Gcit.Library Gcit.Github Gcit.Notify Gcit.State

inductive SourceEvent where
  | update (summary : RunReport)
  | done (summary : RunReport)

def SourceEvent.summary : SourceEvent → RunReport
  | .update summary | .done summary => summary

def SourceEvent.toMonitorEvent : SourceEvent → MonitorEvent
  | .update summary => .update summary.toRunSummary
  | .done summary => .done summary.toRunSummary

/-- The ids of the terminal entries, as often as they are listed. -/
def terminalIds (summary : RunReport) : List UInt64 :=
  (summary.jobs.filter fun j => j.conclusion.isSome).map (·.jobId)

/-- The context of the run is the same in every call. -/
inductive NotifierCall where
  | onJobComplete (notifier : Nat) (job : JobResult)
  | onRunComplete (notifier : Nat) (summary : RunReport)

def NotifierCall.isJobFor (notifier : Nat) (jobId : UInt64) : NotifierCall → Bool
  | .onJobComplete n job => n == notifier && job.jobId == jobId
  | .onRunComplete .. => false

def NotifierCall.isRunFor (notifier : Nat) : NotifierCall → Bool
  | .onJobComplete .. => false
  | .onRunComplete n _ => n == notifier

/-- Where the loop stands; in the branch of a final event it holds the summary. -/
inductive FanOutPc where
  | receiving
  | awaitingJobs (done : Option RunReport)
  | awaitingRun (summary : RunReport)
  | reporting (conclusion : String) (completedAt : DateTime)
  | joining
  | closed

/-- `calls` and `sent` are what happened so far. A spawned task that no worker has
polled yet has not called its notifier. -/
structure FanOut where
  inbox : List SourceEvent
  completedJobs : Finset UInt64
  pc : FanOutPc
  spawned : List NotifierCall
  running : List NotifierCall
  calls : List NotifierCall
  sent : List StateUpdate

inductive FanOutAction where
  | receive
  | start (task : Nat)
  | finish (task : Nat)
  /-- The last of the awaited handles is done. -/
  | joined (now : DateTime)
  /-- The writer took the update, or is gone. -/
  | send
  | sourceJoined

def spawnFanOut (notifiers : Nat) (call : Nat → NotifierCall) : List NotifierCall :=
  (List.range notifiers).map call

def newlyTerminal (summary : RunReport) (completedJobs : Finset UInt64) : List JobResult :=
  summary.jobs.filter fun j => j.conclusion.isSome && !decide (j.jobId ∈ completedJobs)

def fanOutJobCompletes (notifiers : Nat) (summary : RunReport)
    (completedJobs : Finset UInt64) : List NotifierCall :=
  (newlyTerminal summary completedJobs).flatMap fun job =>
    spawnFanOut notifiers (.onJobComplete · job)

def markCompleted (summary : RunReport) (completedJobs : Finset UInt64) : Finset UInt64 :=
  completedJobs ∪ ((newlyTerminal summary completedJobs).map (·.jobId)).toFinset

/-- The events that the loop gets to: it stops at the first final one. -/
def heard : List SourceEvent → List SourceEvent
  | [] => []
  | .update summary :: rest => .update summary :: heard rest
  | .done summary :: _ => [.done summary]

def finalSummary : List SourceEvent → Option RunReport
  | [] => none
  | .update _ :: rest => finalSummary rest
  | .done summary :: _ => some summary

/-- In the first summary where a job is terminal it has one terminal entry. -/
def NoRepeat (events : List SourceEvent) : Prop :=
  ∀ before event after, heard events = before ++ event :: after → ∀ jobId,
    (∀ e ∈ before, jobId ∉ terminalIds e.summary) → (terminalIds event.summary).count jobId ≤ 1

/-- The terminal entries of the job in the first summary where it has one. -/
def tellings (jobId : UInt64) : List SourceEvent → Nat
  | [] => 0
  | .update summary :: rest =>
    if jobId ∈ terminalIds summary then (terminalIds summary).count jobId else tellings jobId rest
  | .done summary :: _ => (terminalIds summary).count jobId

theorem tellings_le_one_iff {jobId : UInt64} {events : List SourceEvent} :
    tellings jobId events ≤ 1 ↔ ∀ before event after, heard events = before ++ event :: after →
      (∀ e ∈ before, jobId ∉ terminalIds e.summary) →
        (terminalIds event.summary).count jobId ≤ 1 := by
  induction events with
  | nil => simp [tellings, heard]
  | cons first rest ih =>
    cases first with
    | done summary =>
      constructor
      · rintro h before event after heq -
        cases before with
        | nil =>
          obtain ⟨rfl, -⟩ := List.cons_eq_cons.mp heq
          exact h
        | cons e before =>
          obtain ⟨-, htail⟩ := List.cons_eq_cons.mp heq
          exact absurd htail (by simp)
      · exact fun h => h [] (.done summary) [] rfl (List.forall_mem_nil _)
    | update summary =>
      rw [tellings]
      split
      case isTrue hterminal =>
        constructor
        · intro h before event after heq hbefore
          cases before with
          | nil =>
            obtain ⟨rfl, -⟩ := List.cons_eq_cons.mp heq
            exact h
          | cons e before =>
            obtain ⟨rfl, -⟩ := List.cons_eq_cons.mp heq
            exact absurd hterminal (hbefore _ List.mem_cons_self)
        · exact fun h => h [] (.update summary) (heard rest) rfl (List.forall_mem_nil _)
      case isFalse hterminal =>
        rw [ih]
        constructor
        · intro h before event after heq hbefore
          cases before with
          | nil =>
            obtain ⟨rfl, -⟩ := List.cons_eq_cons.mp heq
            exact (List.count_eq_zero_of_not_mem hterminal).trans_le (Nat.zero_le 1)
          | cons e before =>
            obtain ⟨-, htail⟩ := List.cons_eq_cons.mp heq
            exact h before event after htail fun e he => hbefore e (List.mem_cons_of_mem _ he)
        · intro h before event after heq hbefore
          apply h (.update summary :: before) event after (congrArg (_ :: ·) heq)
          exact List.forall_mem_cons.mpr ⟨hterminal, hbefore⟩

theorem noRepeat_iff {events : List SourceEvent} :
    NoRepeat events ↔ ∀ jobId, tellings jobId events ≤ 1 := by
  constructor
  · intro h jobId
    exact tellings_le_one_iff.mpr fun before event after heq => h before event after heq jobId
  · intro h before event after heq jobId
    exact tellings_le_one_iff.mp (h jobId) before event after heq

theorem one_le_tellings {jobId : UInt64} {events : List SourceEvent} {summary : RunReport}
    (hfinal : finalSummary events = some summary) (hmem : jobId ∈ terminalIds summary) :
    1 ≤ tellings jobId events := by
  induction events with
  | nil => cases hfinal
  | cons first rest ih =>
    cases first with
    | done last =>
      cases hfinal
      exact List.count_pos_iff.mpr hmem
    | update earlier =>
      rw [tellings]
      split
      case isTrue hterminal => exact List.count_pos_iff.mpr hterminal
      case isFalse => exact ih hfinal

theorem doneSummary_eq (events : List SourceEvent) :
    doneSummary (events.map SourceEvent.toMonitorEvent) =
      (finalSummary events).map (·.toRunSummary) := by
  induction events with
  | nil => rfl
  | cons first rest ih =>
    cases first with
    | done summary => rfl
    | update summary => exact ih

namespace FanOut

def start (events : List SourceEvent) : FanOut := ⟨events, ∅, .receiving, [], [], [], []⟩

variable (params : MonitorParams) (notifiers : Nat)

def receive (s : FanOut) : Option FanOut :=
  match s.pc, s.inbox with
  | .receiving, .update summary :: rest =>
    some { s with
      inbox := rest
      pc := .awaitingJobs none
      spawned := s.spawned ++ fanOutJobCompletes notifiers summary s.completedJobs
      completedJobs := markCompleted summary s.completedJobs }
  | .receiving, .done summary :: rest =>
    some { s with
      inbox := rest
      pc := .awaitingJobs (some summary)
      spawned := s.spawned ++ fanOutJobCompletes notifiers summary s.completedJobs
      completedJobs := markCompleted summary s.completedJobs }
  | .receiving, [] => some { s with pc := .joining }
  | _, _ => none

/-- The loop goes on when no task is left that it waits for. -/
def joined (s : FanOut) (now : DateTime) : Option FanOut :=
  if s.spawned.length + s.running.length = 0 then
    match s.pc with
    | .awaitingJobs none => some { s with pc := .receiving }
    | .awaitingJobs (some summary) =>
      some { s with
        pc := .awaitingRun summary
        spawned := s.spawned ++ spawnFanOut notifiers (.onRunComplete · summary) }
    | .awaitingRun summary =>
      some { s with
        pc := .reporting ((summary.conclusion.map Conclusion.toApi).getD "unknown")
          (summary.completedAt.getD now) }
    | _ => none
  else none

def step (s : FanOut) : FanOutAction → Option FanOut
  | .receive => s.receive notifiers
  | .start task => s.spawned[task]?.map fun call =>
    { s with
      spawned := s.spawned.eraseIdx task
      running := s.running ++ [call]
      calls := s.calls ++ [call] }
  | .finish task =>
    if task < s.running.length then some { s with running := s.running.eraseIdx task } else none
  | .joined now => s.joined notifiers now
  | .send => match s.pc with
    | .reporting conclusion completedAt =>
      some { s with
        pc := .joining
        sent := s.sent ++ [.runFinished params.flowName params.runId conclusion completedAt] }
    | _ => none
  | .sourceJoined => match s.pc with
    | .joining => some { s with pc := .closed }
    | _ => none

/-- The calls that the events still to come will lead to. -/
def callsOf (notifiers : Nat) (completedJobs : Finset UInt64) : List SourceEvent → List NotifierCall
  | [] => []
  | .update summary :: rest =>
    fanOutJobCompletes notifiers summary completedJobs ++
      callsOf notifiers (markCompleted summary completedJobs) rest
  | .done summary :: _ =>
    fanOutJobCompletes notifiers summary completedJobs ++
      spawnFanOut notifiers (.onRunComplete · summary)

def coming (s : FanOut) : List NotifierCall :=
  match s.pc with
  | .receiving | .awaitingJobs none => callsOf notifiers s.completedJobs s.inbox
  | .awaitingJobs (some summary) => spawnFanOut notifiers (.onRunComplete · summary)
  | .awaitingRun _ | .reporting .. | .joining | .closed => []

def reportComing (s : FanOut) : Bool :=
  match s.pc with
  | .receiving | .awaitingJobs none =>
    (doneSummary (s.inbox.map SourceEvent.toMonitorEvent)).isSome
  | .awaitingJobs (some _) | .awaitingRun _ | .reporting .. => true
  | .joining | .closed => false

inductive Moves (s : FanOut) : FanOut → Prop where
  | updated (summary : RunReport) (rest : List SourceEvent) (hpc : s.pc = .receiving)
      (hinbox : s.inbox = .update summary :: rest) : Moves s { s with
        inbox := rest
        pc := .awaitingJobs none
        spawned := s.spawned ++ fanOutJobCompletes notifiers summary s.completedJobs
        completedJobs := markCompleted summary s.completedJobs }
  | final (summary : RunReport) (rest : List SourceEvent) (hpc : s.pc = .receiving)
      (hinbox : s.inbox = .done summary :: rest) : Moves s { s with
        inbox := rest
        pc := .awaitingJobs (some summary)
        spawned := s.spawned ++ fanOutJobCompletes notifiers summary s.completedJobs
        completedJobs := markCompleted summary s.completedJobs }
  | sourceGone (hpc : s.pc = .receiving) (hinbox : s.inbox = []) : Moves s { s with pc := .joining }
  | started (task : Nat) (call : NotifierCall) (hcall : s.spawned[task]? = some call) :
      Moves s { s with
        spawned := s.spawned.eraseIdx task
        running := s.running ++ [call]
        calls := s.calls ++ [call] }
  | finished (task : Nat) (htask : task < s.running.length) :
      Moves s { s with running := s.running.eraseIdx task }
  | jobsTold (hidle : s.spawned = [] ∧ s.running = []) (hpc : s.pc = .awaitingJobs none) :
      Moves s { s with pc := .receiving }
  | lastJobsTold (summary : RunReport) (hidle : s.spawned = [] ∧ s.running = [])
      (hpc : s.pc = .awaitingJobs (some summary)) : Moves s { s with
        pc := .awaitingRun summary
        spawned := s.spawned ++ spawnFanOut notifiers (.onRunComplete · summary) }
  | runTold (summary : RunReport) (now : DateTime) (hidle : s.spawned = [] ∧ s.running = [])
      (hpc : s.pc = .awaitingRun summary) : Moves s { s with
        pc := .reporting ((summary.conclusion.map Conclusion.toApi).getD "unknown")
          (summary.completedAt.getD now) }
  | reported (conclusion : String) (completedAt : DateTime)
      (hpc : s.pc = .reporting conclusion completedAt) : Moves s { s with
        pc := .joining
        sent := s.sent ++ [.runFinished params.flowName params.runId conclusion completedAt] }
  | sourceJoined (hpc : s.pc = .joining) : Moves s { s with pc := .closed }

variable {params notifiers}

theorem moves_of_step {s t : FanOut} {a : FanOutAction} (h : step params notifiers s a = some t) :
    Moves params notifiers s t := by
  cases a with
  | receive =>
    simp only [step, receive] at h
    split at h
    case h_1 summary rest hpc hinbox => cases h; exact .updated summary rest hpc hinbox
    case h_2 summary rest hpc hinbox => cases h; exact .final summary rest hpc hinbox
    case h_3 hpc hinbox => cases h; exact .sourceGone hpc hinbox
    case h_4 => cases h
  | start task =>
    obtain ⟨call, hcall, rfl⟩ := Option.map_eq_some_iff.mp h
    exact .started task call hcall
  | finish task =>
    obtain ⟨htask, rfl⟩ := Transition.guard_eq_some.mp h
    exact .finished task htask
  | joined now =>
    simp only [step, joined] at h
    split at h
    case isFalse => cases h
    case isTrue hlength =>
      obtain ⟨hspawned, hrunning⟩ := Nat.add_eq_zero_iff.mp hlength
      have hidle := And.intro (List.length_eq_zero_iff.mp hspawned)
        (List.length_eq_zero_iff.mp hrunning)
      split at h
      case h_1 hpc => cases h; exact .jobsTold hidle hpc
      case h_2 summary hpc => cases h; exact .lastJobsTold summary hidle hpc
      case h_3 summary hpc => cases h; exact .runTold summary now hidle hpc
      case h_4 => cases h
  | send =>
    simp only [step] at h
    split at h
    case h_1 conclusion completedAt hpc => cases h; exact .reported conclusion completedAt hpc
    case h_2 => cases h
  | sourceJoined =>
    simp only [step] at h
    split at h
    case h_1 hpc => cases h; exact .sourceJoined hpc
    case h_2 => cases h

variable {s t : FanOut}

/-- The tasks change by one that starts or one that finishes. -/
theorem step_tasks {a : FanOutAction} (h : step params notifiers s a = some t) :
    (∃ task call, a = .start task ∧ s.spawned[task]? = some call ∧
      t.calls = s.calls ++ [call] ∧ t.running = s.running ++ [call]) ∨
    (∃ task call, a = .finish task ∧ s.running[task]? = some call ∧
      t.calls = s.calls ∧ t.running = s.running.eraseIdx task) ∨
    ((∀ task, a ≠ .start task) ∧ t.calls = s.calls ∧ t.running = s.running) := by
  cases a with
  | start task =>
    obtain ⟨call, hcall, rfl⟩ := Option.map_eq_some_iff.mp h
    exact .inl ⟨task, call, rfl, hcall, rfl, rfl⟩
  | finish task =>
    obtain ⟨htask, rfl⟩ := Transition.guard_eq_some.mp h
    exact .inr (.inl ⟨task, s.running[task], rfl, List.getElem?_eq_getElem htask, rfl, rfl⟩)
  | receive =>
    simp only [step, receive] at h
    split at h <;> cases h <;> exact .inr (.inr ⟨nofun, rfl, rfl⟩)
  | joined now =>
    simp only [step, joined] at h
    split at h
    case isFalse => cases h
    case isTrue => split at h <;> cases h <;> exact .inr (.inr ⟨nofun, rfl, rfl⟩)
  | send =>
    simp only [step] at h
    split at h <;> cases h
    exact .inr (.inr ⟨nofun, rfl, rfl⟩)
  | sourceJoined =>
    simp only [step] at h
    split at h <;> cases h
    exact .inr (.inr ⟨nofun, rfl, rfl⟩)

/-- No call is lost and none is made up: those made, those of waiting tasks and those to
come stay the same, of every kind. -/
theorem countP_step (p : NotifierCall → Bool) (h : Moves params notifiers s t) :
    t.calls.countP p + t.spawned.countP p + (t.coming notifiers).countP p =
      s.calls.countP p + s.spawned.countP p + (s.coming notifiers).countP p := by
  cases h with
  | updated summary rest hpc hinbox =>
    simp only [coming, hpc, hinbox, callsOf, List.countP_append]
    omega
  | final summary rest hpc hinbox =>
    simp only [coming, hpc, hinbox, callsOf, List.countP_append]
    omega
  | sourceGone hpc hinbox => simp only [coming, hpc, hinbox, callsOf]
  | started task call hcall =>
    obtain ⟨hlt, rfl⟩ := List.getElem?_eq_some_iff.mp hcall
    have hperm := (List.getElem_cons_eraseIdx_perm hlt).countP_eq p
    rw [List.countP_cons] at hperm
    have hcoming : coming notifiers { s with
        spawned := s.spawned.eraseIdx task
        running := s.running ++ [s.spawned[task]]
        calls := s.calls ++ [s.spawned[task]] } = s.coming notifiers := rfl
    simp only [hcoming, List.countP_append, List.countP_singleton]
    omega
  | finished task htask => rfl
  | jobsTold hidle hpc => simp only [coming, hpc]
  | lastJobsTold summary hidle hpc =>
    simp only [coming, hpc, List.countP_append, List.countP_nil]
    omega
  | runTold summary now hidle hpc => simp only [coming, hpc]
  | reported conclusion completedAt hpc => simp only [coming, hpc]
  | sourceJoined hpc => simp only [coming, hpc]

theorem reports_step (h : Moves params notifiers s t) :
    t.sent.length + t.reportComing.toNat = s.sent.length + s.reportComing.toNat := by
  cases h with
  | updated summary rest hpc hinbox =>
    simp [reportComing, hpc, hinbox, doneSummary, SourceEvent.toMonitorEvent]
  | final summary rest hpc hinbox =>
    simp [reportComing, hpc, hinbox, doneSummary, SourceEvent.toMonitorEvent]
  | sourceGone hpc hinbox => simp [reportComing, hpc, hinbox, doneSummary]
  | started task call hcall => rfl
  | finished task htask => rfl
  | jobsTold hidle hpc => simp [reportComing, hpc]
  | lastJobsTold summary hidle hpc => simp [reportComing, hpc]
  | runTold summary now hidle hpc => simp [reportComing, hpc]
  | reported conclusion completedAt hpc => simp [reportComing, hpc]
  | sourceJoined hpc => simp [reportComing, hpc]

/-- No task is left wherever the loop does not wait for one, and the loop is over once the
report is sent. -/
structure Ordered (s : FanOut) : Prop where
  idle : (s.pc = .receiving ∨ s.pc = .joining ∨ s.pc = .closed ∨ ∃ c t, s.pc = .reporting c t) →
    s.spawned = [] ∧ s.running = []
  ended : s.sent ≠ [] → s.pc = .joining ∨ s.pc = .closed

theorem ordered_start (events : List SourceEvent) : Ordered (start events) :=
  ⟨fun _ => ⟨rfl, rfl⟩, fun h => absurd rfl h⟩

theorem ordered_step (hs : Ordered s) (h : Moves params notifiers s t) : Ordered t := by
  cases h with
  | updated summary rest hpc hinbox =>
    refine ⟨by simp, fun hsent => ?_⟩
    have := hs.ended hsent
    simp [hpc] at this
  | final summary rest hpc hinbox =>
    refine ⟨by simp, fun hsent => ?_⟩
    have := hs.ended hsent
    simp [hpc] at this
  | sourceGone hpc hinbox => exact ⟨fun _ => hs.idle (.inl hpc), fun _ => .inl rfl⟩
  | started task call hcall =>
    refine ⟨fun hpc => ?_, hs.ended⟩
    rw [(hs.idle hpc).1] at hcall
    cases hcall
  | finished task htask =>
    refine ⟨fun hpc => ?_, hs.ended⟩
    rw [(hs.idle hpc).2] at htask
    cases htask
  | jobsTold hidle hpc =>
    refine ⟨fun _ => hidle, fun hsent => ?_⟩
    have := hs.ended hsent
    simp [hpc] at this
  | lastJobsTold summary hidle hpc =>
    refine ⟨by simp, fun hsent => ?_⟩
    have := hs.ended hsent
    simp [hpc] at this
  | runTold summary now hidle hpc =>
    refine ⟨fun _ => hidle, fun hsent => ?_⟩
    have := hs.ended hsent
    simp [hpc] at this
  | reported conclusion completedAt hpc =>
    exact ⟨fun _ => hs.idle (.inr (.inr (.inr ⟨_, _, hpc⟩))), fun _ => .inl rfl⟩
  | sourceJoined hpc => exact ⟨fun _ => hs.idle (.inr (.inl hpc)), fun _ => .inr rfl⟩

/-- What is left to do: two steps for each call not made yet, one for each that is under
way, and those of the loop itself. -/
def work (notifiers : Nat) (s : FanOut) : Nat :=
  2 * (s.spawned.length + (s.coming notifiers).length) + s.running.length + 3 * s.inbox.length +
    match s.pc with
    | .receiving => 2
    | .awaitingJobs none => 3
    | .awaitingJobs (some _) => 4
    | .awaitingRun _ => 3
    | .reporting .. => 2
    | .joining => 1
    | .closed => 0

theorem work_step (h : Moves params notifiers s t) : work notifiers t < work notifiers s := by
  cases h with
  | updated summary rest hpc hinbox =>
    simp only [work, coming, hpc, hinbox, callsOf, List.length_append, List.length_cons]
    omega
  | final summary rest hpc hinbox =>
    simp only [work, coming, hpc, hinbox, callsOf, List.length_append, List.length_cons]
    omega
  | sourceGone hpc hinbox => simp [work, coming, hpc, hinbox, callsOf]
  | started task call hcall =>
    obtain ⟨hlt, -⟩ := List.getElem?_eq_some_iff.mp hcall
    have hcoming : coming notifiers { s with
        spawned := s.spawned.eraseIdx task
        running := s.running ++ [call]
        calls := s.calls ++ [call] } = s.coming notifiers := rfl
    simp only [work, hcoming, List.length_eraseIdx_of_lt hlt, List.length_append,
      List.length_singleton]
    omega
  | finished task htask =>
    have hcoming : coming notifiers { s with running := s.running.eraseIdx task } =
        s.coming notifiers := rfl
    simp only [work, hcoming, List.length_eraseIdx_of_lt htask]
    omega
  | jobsTold hidle hpc => simp [work, coming, hpc]
  | lastJobsTold summary hidle hpc => simp [work, coming, hpc]
  | runTold summary now hidle hpc => simp [work, coming, hpc]
  | reported conclusion completedAt hpc => simp [work, coming, hpc]
  | sourceJoined hpc => simp [work, coming, hpc]

theorem progress (hopen : s.pc ≠ .closed) : ∃ a, (step params notifiers s a).isSome := by
  by_cases hspawned : s.spawned = []
  · by_cases hrunning : s.running = []
    · have hidle : s.spawned.length + s.running.length = 0 := by rw [hspawned, hrunning]; rfl
      cases hpc : s.pc with
      | receiving =>
        refine ⟨.receive, ?_⟩
        cases hinbox : s.inbox with
        | nil => simp [step, receive, hpc, hinbox]
        | cons event rest => cases event <;> simp [step, receive, hpc, hinbox]
      | awaitingJobs done =>
        refine ⟨.joined 0, ?_⟩
        cases done <;> simp [step, joined, hpc, hidle]
      | awaitingRun summary => exact ⟨.joined 0, by simp [step, joined, hpc, hidle]⟩
      | reporting conclusion completedAt => exact ⟨.send, by simp [step, hpc]⟩
      | joining => exact ⟨.sourceJoined, by simp [step, hpc]⟩
      | closed => exact absurd hpc hopen
    · exact ⟨.finish 0, by simp [step, List.length_pos_iff.mpr hrunning]⟩
  · exact ⟨.start 0, by simp [step, List.length_pos_iff.mpr hspawned]⟩

/-- Nothing can go on: the monitor has returned. -/
def Stopped (params : MonitorParams) (notifiers : Nat) (s : FanOut) : Prop :=
  ∀ a, step params notifiers s a = none

theorem closed_of_stopped (h : Stopped params notifiers s) : s.pc = .closed := by
  by_contra hopen
  obtain ⟨a, ha⟩ : ∃ a, (step params notifiers s a).isSome := progress hopen
  rw [h a] at ha
  cases ha

theorem length_le_work {actions : List FanOutAction}
    (hrun : Transition.run (step params notifiers) s actions = some t) :
    actions.length ≤ work notifiers s :=
  (Nat.le_add_right _ _).trans
    (Transition.length_add_le (fun _ _ _ h => work_step (moves_of_step h)) hrun)

/-- Every state leads to the end, in whatever order the tasks go. -/
theorem leads_to_closed (params : MonitorParams) (notifiers : Nat) (s : FanOut) :
    ∃ actions t, Transition.run (step params notifiers) s actions = some t ∧ t.pc = .closed :=
  Transition.exists_run_final (fun _ _ _ h => work_step (moves_of_step h))
    (fun _ hopen => (progress hopen).imp fun _ => Option.isSome_iff_exists.mp) s

section Counting

variable {notifier : Nat} {jobId : UInt64}

theorem countP_spawnFanOut {p : NotifierCall → Bool} {call : Nat → NotifierCall}
    (h : ∀ n, p (call n) = (n == notifier)) :
    (spawnFanOut notifiers call).countP p = if notifier < notifiers then 1 else 0 := by
  have hcount :
      (List.range notifiers).countP (p ∘ call) = (List.range notifiers).count notifier := by
    rw [List.count_eq_countP]
    exact List.countP_congr fun n _ => by rw [Function.comp_apply, h]
  rw [spawnFanOut, List.countP_map, hcount, List.count_range]

theorem countP_spawnFanOut_eq_zero {p : NotifierCall → Bool} {call : Nat → NotifierCall}
    (h : ∀ n, p (call n) = false) : (spawnFanOut notifiers call).countP p = 0 := by
  rw [spawnFanOut, List.countP_map]
  exact List.countP_eq_zero.mpr fun n _ => by simp [h]

theorem countP_spawnFanOut_job (job : JobResult) :
    (spawnFanOut notifiers (.onJobComplete · job)).countP (·.isJobFor notifier jobId) =
      if notifier < notifiers ∧ job.jobId = jobId then 1 else 0 := by
  by_cases hjob : job.jobId = jobId
  · have hcall (n : Nat) : (NotifierCall.onJobComplete n job).isJobFor notifier jobId =
        (n == notifier) := by simp [NotifierCall.isJobFor, hjob]
    rw [countP_spawnFanOut hcall]
    simp [hjob]
  · rw [countP_spawnFanOut_eq_zero fun n => by simp [NotifierCall.isJobFor, hjob], if_neg]
    exact fun h => hjob h.2

theorem countP_flatMap_job (jobs : List JobResult) :
    (jobs.flatMap fun job => spawnFanOut notifiers (.onJobComplete · job)).countP
        (·.isJobFor notifier jobId) =
      if notifier < notifiers then (jobs.map (·.jobId)).count jobId else 0 := by
  induction jobs with
  | nil => simp
  | cons job jobs ih =>
    rw [List.flatMap_cons, List.countP_append, ih, countP_spawnFanOut_job, List.map_cons,
      List.count_cons]
    by_cases hnotifier : notifier < notifiers <;> by_cases hjob : job.jobId = jobId <;>
      simp [hnotifier, hjob, Nat.add_comm]

/-- Those not told yet are all of a job's entries or none. -/
theorem count_newlyTerminal (summary : RunReport) (completedJobs : Finset UInt64) :
    ((newlyTerminal summary completedJobs).map (·.jobId)).count jobId =
      if jobId ∈ completedJobs then 0 else (terminalIds summary).count jobId := by
  unfold newlyTerminal terminalIds
  induction summary.jobs with
  | nil => simp
  | cons job jobs ih =>
    cases hterminal : job.conclusion.isSome with
    | false => simpa [hterminal] using ih
    | true =>
      rcases eq_or_ne job.jobId jobId with rfl | hjob
      · by_cases hmem : job.jobId ∈ completedJobs <;> simp_all
      · by_cases hmem : job.jobId ∈ completedJobs <;> simp_all

theorem mem_markCompleted (summary : RunReport) (completedJobs : Finset UInt64) :
    jobId ∈ markCompleted summary completedJobs ↔
      jobId ∈ completedJobs ∨ jobId ∈ terminalIds summary := by
  rw [markCompleted, Finset.mem_union, List.mem_toFinset, ← List.count_pos_iff,
    count_newlyTerminal, ← List.count_pos_iff]
  by_cases hmem : jobId ∈ completedJobs <;> simp [hmem]

theorem countP_fanOutJobCompletes (summary : RunReport) (completedJobs : Finset UInt64) :
    (fanOutJobCompletes notifiers summary completedJobs).countP (·.isJobFor notifier jobId) =
      if notifier < notifiers ∧ jobId ∉ completedJobs then (terminalIds summary).count jobId
      else 0 := by
  rw [fanOutJobCompletes, countP_flatMap_job, count_newlyTerminal]
  by_cases hnotifier : notifier < notifiers <;> by_cases hmem : jobId ∈ completedJobs <;>
    simp [hnotifier, hmem]

/-- All the calls that the events lead to tell a job as often as its first terminal
summary lists it. -/
theorem countP_callsOf (completedJobs : Finset UInt64) (events : List SourceEvent) :
    (callsOf notifiers completedJobs events).countP (·.isJobFor notifier jobId) =
      if notifier < notifiers ∧ jobId ∉ completedJobs then tellings jobId events else 0 := by
  induction events generalizing completedJobs with
  | nil => simp [callsOf, tellings]
  | cons first rest ih =>
    cases first with
    | done summary =>
      rw [callsOf, List.countP_append, countP_fanOutJobCompletes,
        countP_spawnFanOut_eq_zero fun n => rfl]
      rfl
    | update summary =>
      rw [callsOf, List.countP_append, countP_fanOutJobCompletes, ih, tellings]
      simp only [mem_markCompleted]
      by_cases hnew : notifier < notifiers ∧ jobId ∉ completedJobs
      · obtain ⟨hnotifier, hmem⟩ := hnew
        by_cases hterminal : jobId ∈ terminalIds summary
        · simp [hnotifier, hmem, hterminal]
        · simp [hnotifier, hmem, hterminal, List.count_eq_zero_of_not_mem hterminal]
      · rw [if_neg hnew, if_neg hnew, if_neg fun h => hnew ⟨h.1, fun hmem => h.2 (.inl hmem)⟩]

theorem countP_fanOut_run (summary : RunReport) (completedJobs : Finset UInt64) :
    (fanOutJobCompletes notifiers summary completedJobs).countP (·.isRunFor notifier) = 0 := by
  apply List.countP_eq_zero.mpr
  intro call hcall
  obtain ⟨job, -, hcall⟩ := List.mem_flatMap.mp hcall
  obtain ⟨n, -, rfl⟩ := List.mem_map.mp hcall
  simp [NotifierCall.isRunFor]

theorem countP_callsOf_run (completedJobs : Finset UInt64) (events : List SourceEvent) :
    (callsOf notifiers completedJobs events).countP (·.isRunFor notifier) =
      if notifier < notifiers ∧ (finalSummary events).isSome then 1 else 0 := by
  induction events generalizing completedJobs with
  | nil => simp [callsOf, finalSummary]
  | cons first rest ih =>
    cases first with
    | update summary =>
      rw [callsOf, List.countP_append, countP_fanOut_run, ih, Nat.zero_add]
      rfl
    | done summary =>
      rw [callsOf, List.countP_append, countP_fanOut_run, countP_spawnFanOut fun n => rfl]
      simp [finalSummary]

end Counting

/-- The calls of `on_job_complete` and the reports of a state reached on these events. -/
structure ExactlyOnce (params : MonitorParams) (notifiers : Nat) (events : List SourceEvent)
    (s : FanOut) : Prop where
  atMostOnce : ∀ notifier jobId, s.calls.countP (·.isJobFor notifier jobId) ≤ 1
  toldOnce : Stopped params notifiers s → ∀ summary ∈ finalSummary events,
    ∀ jobId ∈ terminalIds summary, ∀ notifier < notifiers,
      s.calls.countP (·.isJobFor notifier jobId) = 1
  sentOnce : s.sent.length ≤ 1
  /-- The report comes after all the calls have returned, those for the run among them. -/
  sentLast : s.sent ≠ [] → s.spawned = [] ∧ s.running = [] ∧
    ∀ notifier < notifiers, s.calls.countP (·.isRunFor notifier) = 1
  sentAlways : Stopped params notifiers s → (finalSummary events).isSome → s.sent ≠ []

section Runs

variable {events : List SourceEvent} {actions : List FanOutAction}

theorem ordered_run
    (hrun : Transition.run (step params notifiers) (start events) actions = some s) : Ordered s :=
  Transition.invariant_run (fun _ _ _ hs h => ordered_step hs (moves_of_step h))
    (ordered_start events) hrun

theorem countP_run (p : NotifierCall → Bool)
    (hrun : Transition.run (step params notifiers) (start events) actions = some s) :
    s.calls.countP p + s.spawned.countP p + (s.coming notifiers).countP p =
      (callsOf notifiers ∅ events).countP p :=
  Transition.invariant_run (I := fun s => s.calls.countP p + s.spawned.countP p +
      (s.coming notifiers).countP p = (callsOf notifiers ∅ events).countP p)
    (fun _ _ _ hs h => (countP_step p (moves_of_step h)).trans hs) (by simp [start, coming]) hrun

theorem reports_run
    (hrun : Transition.run (step params notifiers) (start events) actions = some s) :
    s.sent.length + s.reportComing.toNat = (finalSummary events).isSome.toNat :=
  Transition.invariant_run (I := fun s => s.sent.length + s.reportComing.toNat =
      (finalSummary events).isSome.toNat)
    (fun _ _ _ hs h => (reports_step (moves_of_step h)).trans hs)
    (by simp [start, reportComing, doneSummary_eq]) hrun

/-- Once the loop is over, every call that the events lead to was made. -/
theorem countP_calls_of_over (hs : Ordered s) (hover : s.pc = .joining ∨ s.pc = .closed)
    (p : NotifierCall → Bool)
    (hrun : Transition.run (step params notifiers) (start events) actions = some s) :
    s.calls.countP p = (callsOf notifiers ∅ events).countP p := by
  have hidle : s.spawned = [] := by
    obtain hpc | hpc := hover
    · exact (hs.idle (.inr (.inl hpc))).1
    · exact (hs.idle (.inr (.inr (.inl hpc)))).1
  have hcoming : s.coming notifiers = [] := by
    obtain hpc | hpc := hover <;> simp only [coming, hpc]
  have hcount := countP_run p hrun
  rw [hidle, hcoming] at hcount
  exact hcount

theorem finalSummary_of_mem_callsOf {completedJobs : Finset UInt64} {notifier : Nat}
    {summary : RunReport}
    (h : .onRunComplete notifier summary ∈ callsOf notifiers completedJobs events) :
    finalSummary events = some summary := by
  have hjobs (summary' : RunReport) (completedJobs : Finset UInt64) :
      .onRunComplete notifier summary ∉ fanOutJobCompletes notifiers summary' completedJobs := by
    intro hmem
    obtain ⟨job, -, hmem⟩ := List.mem_flatMap.mp hmem
    obtain ⟨_, -, hcall⟩ := List.mem_map.mp hmem
    cases hcall
  induction events generalizing completedJobs with
  | nil => cases h
  | cons first rest ih =>
    cases first with
    | update earlier => exact ih ((List.mem_append.mp h).resolve_left (hjobs _ _))
    | done last =>
      obtain ⟨_, -, hcall⟩ := List.mem_map.mp ((List.mem_append.mp h).resolve_left (hjobs _ _))
      cases hcall
      rfl

theorem mem_callsOf_of_spawned {call : NotifierCall}
    (hrun : Transition.run (step params notifiers) (start events) actions = some s)
    (h : call ∈ s.spawned) : call ∈ callsOf notifiers ∅ events := by
  classical
  have hcount := countP_run (fun c => decide (c = call)) hrun
  have hpos : 0 < s.spawned.countP fun c => decide (c = call) :=
    List.countP_pos_iff.mpr ⟨call, h, decide_eq_true rfl⟩
  have hpos' : 0 < (callsOf notifiers ∅ events).countP fun c => decide (c = call) := by omega
  obtain ⟨c, hc, heq⟩ := List.countP_pos_iff.mp hpos'
  exact of_decide_eq_true heq ▸ hc

/-- The report comes after all the calls for the run have returned. -/
theorem told_of_sent
    (hrun : Transition.run (step params notifiers) (start events) actions = some s)
    (hsent : s.sent ≠ []) : s.spawned = [] ∧ s.running = [] ∧
      ∀ notifier < notifiers, s.calls.countP (·.isRunFor notifier) = 1 := by
  have hreports := reports_run hrun
  have hover := (ordered_run hrun).ended hsent
  have hidle : s.spawned = [] ∧ s.running = [] := (ordered_run hrun).idle
    (hover.elim (fun hpc => .inr (.inl hpc)) fun hpc => .inr (.inr (.inl hpc)))
  refine ⟨hidle.1, hidle.2, fun notifier hnotifier => ?_⟩
  have hfinal : (finalSummary events).isSome = true := by
    have hpos := List.length_pos_iff.mpr hsent
    cases hsome : (finalSummary events).isSome with
    | true => rfl
    | false =>
      rw [hsome] at hreports
      exact absurd hreports (by simp only [Bool.toNat_false]; omega)
  rw [countP_calls_of_over (ordered_run hrun) hover _ hrun, countP_callsOf_run,
    if_pos ⟨hnotifier, hfinal⟩]

theorem countP_job_of_closed (hpc : s.pc = .closed) (notifier : Nat) (jobId : UInt64)
    (hrun : Transition.run (step params notifiers) (start events) actions = some s) :
    s.calls.countP (·.isJobFor notifier jobId) =
      if notifier < notifiers then tellings jobId events else 0 := by
  rw [countP_calls_of_over (ordered_run hrun) (.inr hpc) _ hrun, countP_callsOf]
  simp

/-- What the model of the task without its notifiers reports for these events. -/
def IsReport (events : List SourceEvent) (conclusion : String) (completedAt : DateTime) : Prop :=
  ∃ now, afterEvents (events.map SourceEvent.toMonitorEvent) now =
    some (.reporting conclusion completedAt)

def Pending (events : List SourceEvent) (s : FanOut) : Prop :=
  match s.pc with
  | .receiving | .awaitingJobs none => finalSummary s.inbox = finalSummary events
  | .awaitingJobs (some summary) | .awaitingRun summary => finalSummary events = some summary
  | .reporting conclusion completedAt => IsReport events conclusion completedAt
  | .joining | .closed => True

structure Reports (params : MonitorParams) (events : List SourceEvent) (s : FanOut) : Prop where
  pending : Pending events s
  sent : ∀ update ∈ s.sent, ∃ conclusion completedAt, IsReport events conclusion completedAt ∧
    update = .runFinished params.flowName params.runId conclusion completedAt

theorem reports_start (params : MonitorParams) (events : List SourceEvent) :
    Reports params events (start events) := by
  refine ⟨?_, fun _ hmem => absurd hmem List.not_mem_nil⟩
  rw [Pending, start]

theorem reports_moves (hs : Reports params events s) (h : Moves params notifiers s t) :
    Reports params events t := by
  have hpending := hs.pending
  cases h with
  | updated summary rest hpc hinbox =>
    simp only [Pending, hpc, hinbox] at hpending
    exact ⟨hpending, hs.sent⟩
  | final summary rest hpc hinbox =>
    simp only [Pending, hpc, hinbox] at hpending
    exact ⟨hpending.symm, hs.sent⟩
  | sourceGone hpc hinbox => exact ⟨trivial, hs.sent⟩
  | started task call hcall => exact ⟨hpending, hs.sent⟩
  | finished task htask => exact ⟨hpending, hs.sent⟩
  | jobsTold hidle hpc =>
    simp only [Pending, hpc] at hpending
    exact ⟨hpending, hs.sent⟩
  | lastJobsTold summary hidle hpc =>
    simp only [Pending, hpc] at hpending
    exact ⟨hpending, hs.sent⟩
  | runTold summary now hidle hpc =>
    simp only [Pending, hpc] at hpending
    refine ⟨⟨now, ?_⟩, hs.sent⟩
    rw [afterEvents, doneSummary_eq, hpending]
    rfl
  | reported conclusion completedAt hpc =>
    simp only [Pending, hpc] at hpending
    refine ⟨trivial, fun update hupdate => ?_⟩
    obtain hupdate | hupdate := List.mem_append.mp hupdate
    · exact hs.sent update hupdate
    · exact ⟨conclusion, completedAt, hpending, List.mem_singleton.mp hupdate⟩
  | sourceJoined hpc => exact ⟨trivial, hs.sent⟩

theorem isReport_of_sent
    (hrun : Transition.run (step params notifiers) (start events) actions = some s)
    {update : StateUpdate} (hupdate : update ∈ s.sent) :
    ∃ conclusion completedAt, IsReport events conclusion completedAt ∧
      update = .runFinished params.flowName params.runId conclusion completedAt :=
  (Transition.invariant_run (I := Reports params events)
    (fun _ _ _ hs h => reports_moves hs (moves_of_step h)) (reports_start params events)
    hrun).sent update hupdate

end Runs

/-- For all events and any number of notifiers, whatever the order of the tasks: the
notifications and the report are exactly once in every state reached if and only if no job
has two terminal entries in the first summary where it is terminal. -/
theorem exactly_once_iff (params : MonitorParams) (notifiers : Nat) (events : List SourceEvent) :
    (∀ actions s, Transition.run (step params notifiers) (start events) actions = some s →
      ExactlyOnce params notifiers events s) ↔ notifiers = 0 ∨ NoRepeat events := by
  constructor
  · intro h
    rw [or_iff_not_imp_left, noRepeat_iff]
    intro hnotifiers jobId
    obtain ⟨actions, s, hrun, hpc⟩ := leads_to_closed params notifiers (start events)
    have hcount := countP_job_of_closed hpc 0 jobId hrun
    rw [if_pos (Nat.pos_of_ne_zero hnotifiers)] at hcount
    exact hcount.symm.trans_le ((h actions s hrun).atMostOnce 0 jobId)
  · intro h actions s hrun
    have hreports := reports_run hrun
    have htellings (notifier : Nat) (hnotifier : notifier < notifiers) (jobId : UInt64) :
        tellings jobId events ≤ 1 :=
      noRepeat_iff.mp (h.resolve_left (Nat.ne_of_gt (Nat.zero_lt_of_lt hnotifier))) jobId
    refine ⟨fun notifier jobId => ?_,
      fun hstopped summary hfinal jobId hmem notifier hnotifier => ?_, ?_, fun hsent => ?_,
      fun hstopped hfinal hsent => ?_⟩
    · have hcount := countP_run (·.isJobFor notifier jobId) hrun
      have htotal : (callsOf notifiers ∅ events).countP (·.isJobFor notifier jobId) ≤ 1 := by
        rw [countP_callsOf]
        split
        case isTrue hnotifier => exact htellings notifier hnotifier.1 jobId
        case isFalse => exact Nat.zero_le 1
      omega
    · rw [countP_job_of_closed (closed_of_stopped hstopped) notifier jobId hrun, if_pos hnotifier]
      exact Nat.le_antisymm (htellings notifier hnotifier jobId) (one_le_tellings hfinal hmem)
    · have hle := Bool.toNat_le (finalSummary events).isSome
      omega
    · exact told_of_sent hrun hsent
    · rw [hsent, hfinal, reportComing, closed_of_stopped hstopped] at hreports
      cases hreports

def twiceListed : RunReport where
  toRunSummary := { emptyRunSummary 1 with status := .completed, conclusion := some .success }
  jobs := [⟨7, "test (1)", "", some .success, 1⟩, ⟨7, "test (1)", "", some .success, 1⟩]

/-- A page boundary lists job 7 twice, and the only notifier hears of it twice. -/
theorem job_told_twice :
    let params : MonitorParams := ⟨"flow", "owner/repo", "ci.yml", 1, seconds 30,
      ⟨"flow", none, ⟨"", "", .repeated 0, ""⟩, ⟨"owner/repo", "ci.yml", 1, "", 0⟩, Uuid.nil⟩⟩
    ¬ ∀ actions s,
      Transition.run (step params 1) (start [.done twiceListed]) actions = some s →
        ExactlyOnce params 1 [.done twiceListed] s := by
  intro params h
  have hcalled := (h [.receive, .start 0, .start 0] _ rfl).atMostOnce 0 7
  exact absurd hcalled (by decide)

end FanOut

end Gcit.Flow
