import Gcit.Github.Error
import Gcit.Library.Tape

/-! # Dispatching a workflow

`dispatch` is one attempt: the quota gate, the pacing gate, one POST, and the
answer classified. `dispatchWithRetry` repeats it as `backon` does. What the
outside does to an attempt is one record: what the rate-limit snapshot held, who
won the race between the deferral and the token, what came back, and, seen by
no one here, whether the server made a run of the request.
-/

namespace Gcit.Github

open Std Gcit Gcit.Git Gcit.Library

/-- A UUID, kept as its thirty-two half-bytes. -/
structure Uuid where
  nibbles : List (Fin 16)
  size : nibbles.length = 32
  deriving DecidableEq

def Uuid.nil : Uuid := ⟨List.replicate 32 0, rfl⟩

def Uuid.toText (id : Uuid) : String :=
  let hex := id.nibbles.map hexDigit
  "-".intercalate ([(0, 8), (8, 4), (12, 4), (16, 4), (20, 12)].map fun (start, length) =>
    String.ofList ((hex.drop start).take length))

def POLL_INTERVAL : Duration := seconds 60

structure RateLimitSnapshot where
  remaining : Option Nat
  limit : Option Nat
  reset : Option DateTime
  observedAt : Option DateTime
  deriving DecidableEq

/-- The wait before a request, if it has to wait. -/
def RateLimitSnapshot.shouldDefer (s : RateLimitSnapshot) (now : DateTime) : Option Duration :=
  match s.observedAt with
  | none => some POLL_INTERVAL
  | some observedAt =>
    if now - observedAt > (POLL_INTERVAL * 2 : Nat) then some POLL_INTERVAL
    else match s.remaining with
      | some 0 => match s.reset with
        | some reset => if now < reset then some (reset - now).toNat else none
        | none => none
      | some _ => none
      | none => some POLL_INTERVAL

structure Client where
  credential : CredentialId
  requestTimeout : Duration
  deriving DecidableEq

structure DispatchParams where
  repo : String
  workflow : String
  refName : String
  gcitRunId : Uuid
  renderedInputs : ExtTreeMap String String

structure DispatchOutcome where
  gcitRunId : Uuid
  dispatchedAt : DateTime
  repo : String
  workflow : String
  refName : String
  deriving DecidableEq

def GCIT_RUN_ID_INPUT : String := "gcit_run_id"

def buildInputsPayload (renderedInputs : ExtTreeMap String String) (gcitRunId : Uuid) : Json :=
  .object ((renderedInputs.insert GCIT_RUN_ID_INPUT gcitRunId.toText).toList.map fun (k, v) =>
    (k, .string v))

def splitRepo (slashForm : String) : Except GithubErrorKind (String × String) :=
  let owner := String.ofList (slashForm.toList.takeWhile (· != '/'))
  let repo := String.ofList ((slashForm.toList.dropWhile (· != '/')).drop 1)
  if owner = "" ∨ repo = "" then
    .error (.unknown ("repo `" ++ slashForm ++
      "` must be `owner/repo` (config validation should have caught this)"))
  else .ok (owner, repo)

/-- `http::Uri::from_str`, which answers the text of its error. -/
structure HttpCrate where
  uriParse : String → Except String Unit

structure DispatchRequest where
  uri : String
  body : Json

inductive PostAnswer where
  /-- The error is what `map_github_error` makes of an unsuccessful response. -/
  | response (status : Nat) (error : OctocrabError)
  | failed (e : OctocrabError)
  | elapsed
  deriving DecidableEq

structure Attempt where
  snapshot : RateLimitSnapshot
  checkedAt : DateTime
  cancelWins : Bool
  sentAt : DateTime
  answer : PostAnswer
  createsRun : Bool
  snapshotAfter : RateLimitSnapshot
  answeredAt : DateTime
  /-- The next delay of the exponential schedule. -/
  delay : Duration
  deriving DecidableEq

def waitForRateLimitOrCancel (a : Attempt) : Except GithubErrorKind Unit :=
  match a.snapshot.shouldDefer a.checkedAt with
  | none => .ok ()
  | some _ => if a.cancelWins then .error .cancelled else .ok ()

variable (http : HttpCrate) (client : Client) (params : DispatchParams)

def buildDispatchUri (owner repo workflow : String) : Except GithubErrorKind String :=
  let route := "/repos/" ++ owner ++ "/" ++ repo ++ "/actions/workflows/" ++ workflow ++ "/dispatches"
  match http.uriParse route with
  | .ok () => .ok route
  | .error e => .error (.unknown ("dispatcher route URI invalid: " ++ e))

/-- `dispatch` up to its POST. -/
def dispatchRequest (a : Attempt) : Except GithubErrorKind DispatchRequest := do
  let (owner, repo) ← splitRepo params.repo
  waitForRateLimitOrCancel a
  let payload := buildInputsPayload params.renderedInputs params.gcitRunId
  let uri ← buildDispatchUri http owner repo params.workflow
  return ⟨uri, .object [("inputs", payload), ("ref", .string params.refName)]⟩

def reclassify403ViaSnapshot (classified : GithubErrorKind) (a : Attempt) : GithubErrorKind :=
  match classified with
  | .forbidden credential =>
    if a.snapshotAfter.remaining = some 0 then
      .rateLimited credential (resolveReset a.snapshotAfter.reset a.answeredAt)
    else classified
  | _ => classified

def classifyAnswer (err : OctocrabError) (a : Attempt) : GithubErrorKind :=
  reclassify403ViaSnapshot
    (classify err client.credential params.repo params.workflow none none a.answeredAt) a

def isSuccess (status : Nat) : Bool := decide (200 ≤ status ∧ status ≤ 299)

/-- What `send_dispatch_request` and `classify_response_or_error` make of the answer. -/
def answerResult (a : Attempt) : Except GithubErrorKind Unit :=
  match a.answer with
  | .response status err =>
    if isSuccess status then .ok () else .error (classifyAnswer client params err a)
  | .failed e => .error (classifyAnswer client params e a)
  | .elapsed => .error (timeoutError client.requestTimeout)

def dispatch (a : Attempt) : Except GithubErrorKind DispatchOutcome := do
  let _ ← dispatchRequest http params a
  answerResult client params a
  return ⟨params.gcitRunId, a.sentAt, params.repo, params.workflow, params.refName⟩

/-- The adjusted delay: a rate limit always names one, anything else only while
the schedule still has one. -/
def adjustDelay (err : GithubErrorKind) (now : DateTime) (scheduled : Option Duration) :
    Option Duration :=
  match err.retryAfter now, scheduled with
  | some retryAfter, some d => some (max retryAfter d)
  | some retryAfter, none => some retryAfter
  | none, scheduled => scheduled

variable (maxAttempts : Nat)

def retryRound (retries : Nat) (a : Attempt) :
    Except GithubErrorKind DispatchOutcome ⊕ Nat :=
  match dispatch http client params a with
  | .ok outcome => .inl (.ok outcome)
  | .error err =>
    if err.isTransient then
      match adjustDelay err a.answeredAt (if retries < maxAttempts then some a.delay else none) with
      | none => .inl (.error err)
      | some _ => .inr (retries + 1)
    else .inl (.error err)

def dispatchWithRetry (attempts : List Attempt) : Option (Except GithubErrorKind DispatchOutcome) :=
  Tape.play (retryRound http client params maxAttempts) 0 attempts

def attemptsMade (attempts : List Attempt) : List Attempt :=
  Tape.played (retryRound http client params maxAttempts) 0 attempts

/-- The POST of the attempt is sent, and the server makes a run of it. -/
def createsRun (a : Attempt) : Bool := (dispatchRequest http params a).isOk && a.createsRun

end Gcit.Github
