import Gcit.Git.Strategy

/-! # One poll cycle

`pollOne` issues one strategy-specific poll. What the network answers is an
input; an answer that loses the race against cancellation is `none`. The
grokmirror fingerprint is the only value that crosses cycles, so it is passed in
and handed back, also when the cycle fails.
-/

namespace Gcit.Poll

open Std Gcit Gcit.Git

structure EffectivePoll where
  sourceInterval : Duration
  jobInterval : Duration
  jitter : Rat
  cooldown : Duration
  deriving DecidableEq

/-- The transport handles and the rate bucket matter only through being there. -/
structure PollParams where
  flowName : String
  url : String
  refName : String
  effectivePoll : EffectivePoll
  rateBucket : Bool
  octo : Bool
  reqwest : Bool

inductive PollCycleError where
  | cancelled
  | failed (message : String)
  deriving DecidableEq, Repr

inductive GrokmirrorError where
  | transient (message : String)
  | repoNotInManifest (repoPath : String)
  | permanent (message : String)
  deriving DecidableEq, Repr

def GrokmirrorError.display : GrokmirrorError → String
  | .transient message => "transient: " ++ message
  | .repoNotInManifest repoPath => "repo `" ++ repoPath ++ "` not present in manifest"
  | .permanent message => "permanent: " ++ message

structure RepoEntry where
  fingerprint : String
  modified : Option UInt64
  deriving DecidableEq

abbrev Manifest := ExtTreeMap String RepoEntry

def lookupFingerprint (manifest : Manifest) (repoPath : String) : Except GrokmirrorError String :=
  match manifest[repoPath]? with
  | some e => .ok e.fingerprint
  | none => .error (.repoNotInManifest repoPath)

def extractRepoPathFromUrl (urls : UrlCrates) (url : String) : Except GrokmirrorError String :=
  match urls.gixUrlParse url with
  | .error e =>
    .error (.permanent ("could not parse source URL " ++ urls.strDebug url ++ ": " ++ e))
  | .ok parsed =>
    if parsed.path = "" ∨ parsed.path = "/" then
      .error (.permanent ("source URL " ++ urls.strDebug url ++ " has no path component"))
    else if parsed.path.toList.head? = some '/' then .ok parsed.path
    else .ok ("/" ++ parsed.path)

def baseUrl (urls : UrlCrates) (url : String) : Option String :=
  match urls.urlParse url with
  | .error _ => none
  | .ok parsed => parsed.host.map fun host => parsed.scheme ++ "://" ++ host

def stripGitSuffix (repo : String) : String :=
  if ".git".toList.isSuffixOf repo.toList then
    String.ofList (repo.toList.take (repo.toList.length - 4))
  else repo

def splitGithubRepo (urls : UrlCrates) (url : String) : Except String (String × String) :=
  match urls.urlParse url with
  | .error e => .error e
  | .ok parsed => match parsed.pathSegments with
    | none => .error "github URL has no path"
    | some segments => match segments.filter fun s => s ≠ "" with
      | [] => .error "missing owner"
      | [_] => .error "missing repo"
      | owner :: repo :: _ => .ok (owner, stripGitSuffix repo)

/-- Resolving one ref finds its id or finds that there is none: neither the API
lookup nor ls-remote ever answers that nothing changed. -/
inductive RefAnswer where
  | refreshed (sha : ObjectId)
  | unbornRef
  deriving DecidableEq

def RefAnswer.outcome : RefAnswer → PollOutcome
  | .refreshed sha => .refreshed sha
  | .unbornRef => .unbornRef

structure Network where
  githubApi : Option (Except String RefAnswer)
  manifest : Option (Except GrokmirrorError Manifest)
  lsRemote : Option (Except String RefAnswer)

def raced : Option (Except String RefAnswer) → Except PollCycleError PollOutcome
  | none => .error .cancelled
  | some (.error e) => .error (.failed e)
  | some (.ok answer) => .ok answer.outcome

def lsRemoteInline (net : Network) : Except PollCycleError PollOutcome := raced net.lsRemote

def pollGithubApi (urls : UrlCrates) (params : PollParams) (net : Network) :
    Except PollCycleError PollOutcome :=
  if params.octo then match splitGithubRepo urls params.url with
    | .error e => .error (.failed ("github URL parse: " ++ e))
    | .ok _ => raced net.githubApi
  else .error (.failed "github_api strategy requires Octocrab handle")

/-- The part of the grokmirror arm up to the fetched manifest, with the key to look up in it. -/
def fetchManifest (urls : UrlCrates) (params : PollParams) (net : Network) :
    Except PollCycleError (Manifest × String) :=
  if params.reqwest then match baseUrl urls params.url with
    | none => .error (.failed "grokmirror URL must carry a host")
    | some _ => match extractRepoPathFromUrl urls params.url with
      | .error e => .error (.failed ("grokmirror repo path: " ++ e.display))
      | .ok repoPath => match net.manifest with
        | none => .error .cancelled
        | some (.error e) => .error (.failed e.display)
        | some (.ok manifest) => .ok (manifest, repoPath)
  else .error (.failed "grokmirror strategy requires reqwest handle")

def pollGrokmirror (urls : UrlCrates) (params : PollParams) (fingerprint : Option String)
    (net : Network) : Except PollCycleError PollOutcome × Option String :=
  match fetchManifest urls params net with
  | .error e => (.error e, fingerprint)
  | .ok (manifest, repoPath) => match lookupFingerprint manifest repoPath with
    | .ok newFp =>
      let unchanged := match fingerprint with
        | some prev => prev == newFp
        | none => false
      (if unchanged then .ok .unchanged else lsRemoteInline net, some newFp)
    | .error (.repoNotInManifest _) => (.ok .unbornRef, fingerprint)
    | .error e => (.error (.failed ("grokmirror lookup: " ++ e.display)), fingerprint)

def pollOne (urls : UrlCrates) (strategy : PollStrategy) (params : PollParams)
    (fingerprint : Option String) (net : Network) :
    Except PollCycleError PollOutcome × Option String :=
  match strategy with
  | .githubApi => (pollGithubApi urls params net, fingerprint)
  | .grokmirror => pollGrokmirror urls params fingerprint net
  | .lsRemote => (lsRemoteInline net, fingerprint)

def listed (urls : UrlCrates) (params : PollParams) (net : Network) : Option String :=
  match fetchManifest urls params net with
  | .error _ => none
  | .ok (manifest, repoPath) => (lookupFingerprint manifest repoPath).toOption

theorem lookupFingerprint_error {manifest : Manifest} {repoPath : String} {e : GrokmirrorError}
    (h : lookupFingerprint manifest repoPath = .error e) : e = .repoNotInManifest repoPath := by
  unfold lookupFingerprint at h
  split at h <;> cases h
  rfl

variable {urls : UrlCrates} {params : PollParams} {net : Network} (fingerprint : Option String)

theorem pollGrokmirror_of_listed {fp : String} (h : listed urls params net = some fp) :
    pollGrokmirror urls params fingerprint net =
      (if fingerprint = some fp then .ok .unchanged else lsRemoteInline net, some fp) := by
  unfold listed at h
  unfold pollGrokmirror
  cases hm : fetchManifest urls params net with
  | error e => simp [hm] at h
  | ok m =>
    cases hl : lookupFingerprint m.1 m.2 with
    | error e => simp [hm, hl, Except.toOption] at h
    | ok newFp =>
      obtain rfl : newFp = fp := by simpa [hm, hl, Except.toOption] using h
      cases fingerprint <;> simp [hl]

theorem pollGrokmirror_of_unlisted (h : listed urls params net = none) :
    ∃ r, pollGrokmirror urls params fingerprint net = (r, fingerprint) ∧
      (r = .ok .unbornRef ∨ ∃ e, r = .error e) := by
  unfold listed at h
  unfold pollGrokmirror
  cases hm : fetchManifest urls params net with
  | error e => exact ⟨_, rfl, .inr ⟨e, rfl⟩⟩
  | ok m =>
    cases hl : lookupFingerprint m.1 m.2 with
    | ok newFp => simp [hm, hl, Except.toOption] at h
    | error e =>
      obtain rfl := lookupFingerprint_error hl
      exact ⟨.ok .unbornRef, by simp only [hl], .inl rfl⟩

end Gcit.Poll
