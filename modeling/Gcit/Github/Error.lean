import Mathlib.Data.List.Infix
import Gcit.Config.Types

/-! # Errors of the GitHub side

`GithubErrorKind` classifies every failure of a request, and whether it is worth
a retry is read off the kind. An error of the HTTP client enters as what the
classifier looks at: a GitHub answer with its status and message, a transport
failure, or something else, these two with their rendered text. How the date and
duration types print themselves is a parameter.
-/

namespace Gcit.Github

open Gcit Gcit.Git

structure Formats where
  dateTime : DateTime → String
  duration : Duration → String

/-- `str::contains`. -/
def contains (s needle : String) : Bool := decide (needle.toList <:+: s.toList)

inductive Retryability where
  | transient
  | permanent
  deriving DecidableEq, Repr

inductive GithubErrorKind where
  | unauthorized (credential : CredentialId)
  | forbidden (credential : CredentialId)
  | workflowNotFound (repo workflow : String)
  | dispatchInvalid (workflow : String)
  | rateLimited (credential : CredentialId) (reset : DateTime)
  | serverError (status maxAttempts : Nat)
  | timeout (timeout : Duration)
  | transport (source : String)
  | unknown (source : String)
  | cancelled
  | bodyTooLarge (declared : Option Nat) (limit : Nat)
  deriving DecidableEq, Repr

def SERVER_ERROR_MAX_ATTEMPTS : Nat := 6

namespace GithubErrorKind

def display (formats : Formats) : GithubErrorKind → String
  | .unauthorized credential =>
    "GitHub auth failed (401). PAT for credential '" ++ credential ++
      "' invalid or expired. Re-issue via GitHub UI."
  | .forbidden credential =>
    "GitHub auth denied (403). PAT for credential '" ++ credential ++
      "' lacks scope. Required: 'workflow' + 'repo' (or 'public_repo' for public repos). " ++
      "Run: gh auth status"
  | .workflowNotFound repo workflow =>
    "Workflow not found: " ++ repo ++ "/" ++ workflow ++
      ". Verify (a) the file exists in the repository's default branch, " ++
      "(b) `on: workflow_dispatch:` is declared, (c) PAT has access."
  | .dispatchInvalid workflow =>
    "GitHub rejected workflow_dispatch (422 Unprocessable Entity). Most common cause: workflow " ++
      "YAML lacks `workflow_dispatch:` in `on:`. Add this to .github/workflows/" ++ workflow ++
      ":\n\non:\n  workflow_dispatch:\n    inputs:\n      gcit_run_id:\n        type: string\n\n" ++
      "run-name: gcit-$\x7b\x7b inputs.gcit_run_id \x7d\x7d\n\n" ++
      "Then commit, push to default branch, and try again."
  | .rateLimited credential reset =>
    "GitHub rate limit exhausted on credential '" ++ credential ++ "'. Reset at " ++
      formats.dateTime reset ++ ". gcit will defer requests until reset."
  | .serverError status maxAttempts =>
    "GitHub server error " ++ toString status ++ ". Retrying with exponential backoff (max " ++
      toString maxAttempts ++ " attempts)."
  | .timeout d => "GitHub request timeout after " ++ formats.duration d ++ ". Will retry."
  | .transport source => "GitHub transport error: " ++ source ++ ". Will retry."
  | .unknown source => "GitHub request failed (uncategorised): " ++ source
  | .cancelled =>
    "dispatch cancelled by supervisor (SIGHUP reload OR SIGTERM/SIGINT shutdown — see daemon log " ++
      "line preceding this error to identify which); after a reload the new generation re-fires " ++
      "from the next poll, after shutdown the work is intentionally dropped"
  | .bodyTooLarge declared limit =>
    "GitHub API response body exceeds " ++ toString limit ++ "-byte cap" ++ match declared with
      | some d => "; server declared Content-Length: " ++ toString d
      | none => "; streamed body exceeded the cap mid-read"

def retryability : GithubErrorKind → Retryability
  | .unauthorized _ | .forbidden _ | .workflowNotFound .. | .dispatchInvalid _ | .cancelled
  | .bodyTooLarge .. => .permanent
  | .serverError .. | .timeout _ | .rateLimited .. | .transport _ | .unknown _ => .transient

def isTransient (e : GithubErrorKind) : Bool := decide (e.retryability = .transient)

/-- Zero when the reset is already past. -/
def retryAfter (now : DateTime) : GithubErrorKind → Option Duration
  | .rateLimited _ reset => some (if now < reset then (reset - now).toNat else 0)
  | _ => none

end GithubErrorKind

def resolveReset (reset : Option DateTime) (now : DateTime) : DateTime :=
  match reset with
  | some r => if now < r then r else now + seconds 60
  | none => now + seconds 60

def messageIndicatesDispatchInvalid (message : String) : Bool :=
  let lower := String.ofList (message.toList.map Char.toLower)
  contains lower "unexpected inputs" || contains lower "gcit_run_id"

structure StatusContext where
  status : Nat
  message : String
  rateLimitRemaining : Option Nat
  rateLimitReset : Option DateTime
  credential : CredentialId
  repo : String
  workflow : String

def classifyStatus (ctx : StatusContext) (now : DateTime) : GithubErrorKind :=
  if ctx.status = 401 then .unauthorized ctx.credential
  else if ctx.status = 403 then
    if ctx.rateLimitRemaining = some 0 then
      .rateLimited ctx.credential (resolveReset ctx.rateLimitReset now)
    else .forbidden ctx.credential
  else if ctx.status = 404 then .workflowNotFound ctx.repo ctx.workflow
  else if ctx.status = 422 then
    if messageIndicatesDispatchInvalid ctx.message then .dispatchInvalid ctx.workflow
    else .unknown ("github 422 on " ++ ctx.repo ++ "/" ++ ctx.workflow ++ ": " ++ ctx.message)
  else if ctx.status = 429 then .rateLimited ctx.credential (resolveReset ctx.rateLimitReset now)
  else if 500 ≤ ctx.status ∧ ctx.status ≤ 599 then
    .serverError ctx.status SERVER_ERROR_MAX_ATTEMPTS
  else .unknown ("uncategorised github status " ++ toString ctx.status)

inductive OctocrabError where
  | github (status : Nat) (message : String)
  | transport (display : String)
  | other (display : String)
  deriving DecidableEq, Repr

def classify (err : OctocrabError) (credential : CredentialId) (repo workflow : String)
    (rateLimitRemaining : Option Nat) (rateLimitReset : Option DateTime) (now : DateTime) :
    GithubErrorKind :=
  match err with
  | .github status message =>
    classifyStatus ⟨status, message, rateLimitRemaining, rateLimitReset, credential, repo, workflow⟩
      now
  | .transport display => .transport ("octocrab transport error: " ++ display)
  | .other display => .unknown ("octocrab error: " ++ display)

def timeoutError (deadline : Duration) : GithubErrorKind := .timeout deadline

end Gcit.Github
