import Gcit.Git.ObjectId
import Gcit.State.Apply

/-! # Poll strategies and the comparison of object ids

The URL parsers are crates outside the repository. They enter as a parameter,
together with the debug rendering of strings that their error texts use.
-/

namespace Gcit.Git

open Gcit

structure ParsedUrl where
  scheme : String
  host : Option String
  pathSegments : Option (List String)

structure GixUrl where
  host : Option String
  path : String

structure UrlCrates where
  urlParse : String → Except String ParsedUrl
  gixUrlParse : String → Except String GixUrl
  strDebug : String → String

inductive PollStrategy where
  | githubApi
  | grokmirror
  | lsRemote
  deriving DecidableEq, Repr

def seconds (n : Nat) : Duration := n * 1000000000

def defaultInterval : PollStrategy → Duration
  | .githubApi => seconds 60
  | .grokmirror => seconds 60
  | .lsRemote => seconds 300

def eqIgnoreAsciiCase (a b : String) : Bool :=
  a.toList.map Char.toLower == b.toList.map Char.toLower

def autoDetect (urls : UrlCrates) (url : String) : PollStrategy :=
  match urls.gixUrlParse url with
  | .error _ => .lsRemote
  | .ok parsed => match parsed.host with
    | none => .lsRemote
    | some host =>
      if eqIgnoreAsciiCase host "github.com" || eqIgnoreAsciiCase host "www.github.com" then
        .githubApi
      else if eqIgnoreAsciiCase host "git.kernel.org" then .grokmirror
      else .lsRemote

inductive PollOutcome where
  | refreshed (sha : ObjectId)
  | unbornRef
  | unchanged
  deriving DecidableEq

structure DiffOutcome where
  observed : ObjectId
  trigger : Bool
  deriving DecidableEq

/-- A first observation is a baseline and never triggers. -/
def compareSha (last : Option ObjectId) (observed : ObjectId) : DiffOutcome where
  observed := observed
  trigger := match last with
    | none => false
    | some prev => prev != observed

end Gcit.Git
