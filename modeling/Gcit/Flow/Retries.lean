import Gcit.Flow.HandleTrigger
import Gcit.Github.Markers

/-! # How many runs one trigger makes

An attempt whose answer is lost is repeated with the same id. Nothing tells the
server so, and it makes another run of the repeated request.
-/

namespace Gcit.Github

open Std Gcit Gcit.Git Gcit.Library

section Retry

variable (http : HttpCrate) (client : Client) (params : DispatchParams) (maxAttempts : Nat)

/-- After this many retries, the answer to the attempt asks for one more: it is a
transient error, and a rate limit or within the budget. -/
def Retried (retries : Nat) (a : Attempt) : Prop :=
  ∃ err, dispatch http client params a = .error err ∧ err.isTransient = true ∧
    (retries < maxAttempts ∨ ∃ credential reset, err = .rateLimited credential reset)

variable {http client params maxAttempts}

theorem adjustDelay_eq_none {err : GithubErrorKind} {now : DateTime} {retries : Nat}
    {delay : Duration} :
    adjustDelay err now (if retries < maxAttempts then some delay else none) = none ↔
      ¬ (retries < maxAttempts ∨ ∃ credential reset, err = .rateLimited credential reset) := by
  by_cases hbudget : retries < maxAttempts
  · rw [if_pos hbudget]
    cases err <;> simp [adjustDelay, GithubErrorKind.retryAfter, hbudget]
  · rw [if_neg hbudget]
    cases err <;> simp [adjustDelay, GithubErrorKind.retryAfter, hbudget]

theorem retryRound_eq_inr {retries t : Nat} {a : Attempt} :
    retryRound http client params maxAttempts retries a = .inr t ↔
      Retried http client params maxAttempts retries a ∧ retries + 1 = t := by
  unfold retryRound Retried
  cases hdispatch : dispatch http client params a with
  | ok outcome => simp
  | error err =>
    by_cases htransient : err.isTransient = true
    · simp only [htransient, if_true, Except.error.injEq, exists_eq_left', true_and]
      split
      · next hdelay => simp [adjustDelay_eq_none.mp hdelay]
      · next d hdelay =>
        have hmore := mt adjustDelay_eq_none.mpr (hdelay ▸ Option.some_ne_none d)
        simp [not_not.mp hmore]
    · simp [htransient]

end Retry

end Gcit.Github

namespace Gcit.Flow

open Std Gcit Gcit.Git Gcit.Poll Gcit.Library Gcit.Github

def createdRuns (crates : DispatchCrates) (params : FlowDispatchParams) (trigger : TriggerSignal)
    (env : TriggerEnv) : Nat :=
  match dispatchParams crates params trigger env with
  | .error _ => 0
  | .ok dispatchParams =>
    (attemptsOf crates params env dispatchParams).countP (createsRun crates.http dispatchParams)

/-- Parsers and printers that are enough for the fixed calls, whose flow has no inputs. -/
def plainCrates : DispatchCrates where
  http := plainHttp
  formats := ⟨fun _ => "1970-01-01 00:00:00 UTC", fun _ => "30s"⟩
  renderTemplate template _ := .ok template

def mainFlow : FlowDispatchParams where
  flowName := "linux"
  flowDescription := none
  url := "https://git.kernel.org/pub/scm/linux.git"
  refName := "refs/heads/master"
  action := ⟨"owner/repo", "ci.yml", "refs/heads/main", "github", ∅⟩
  jobInterval := seconds 30
  client := ⟨"github", seconds 30⟩

def attemptAt (now : DateTime) (answer : PostAnswer) (createsRun : Bool) : Attempt where
  snapshot := ⟨some 10, some 5000, none, some now⟩
  checkedAt := now
  cancelWins := false
  sentAt := now
  answer := answer
  createsRun := createsRun
  snapshotAfter := ⟨some 9, some 5000, none, some now⟩
  answeredAt := now
  delay := seconds 5

def accepted : PostAnswer := .response 204 (.other "")

def callAt (gcitRunId : Uuid) (attempts : List Attempt) (cycles : List CorrelateCycle) : TriggerEnv where
  gcitRunId := gcitRunId
  triggeredAt := 0
  attempts := attempts
  correlationStarted := 0
  cycles := cycles
  stateOpen := true
  runStartedAt := 0

end Gcit.Flow
