import Gcit.Library.Utf8
import Gcit.Mail.Mbox
import Gcit.Notify.Rendering

/-! # The mail notifier up to its spool

What a call decides before it touches a file, and how it names what went wrong there.
-/

namespace Gcit.Notify

inductive SkipReason where
  | notConfigured
  | fireOnMismatch
  | rateLimited
  deriving DecidableEq

inductive NotifyOutcome where
  | sent (receipt : String)
  | skipped (reason : SkipReason)
  deriving DecidableEq

inductive NotifyError where
  | transient (source : String) (retryAfter : Option Duration)
  | permanent (source : String)
  deriving DecidableEq

def NotifyError.isTransient : NotifyError → Bool
  | .transient .. => true
  | .permanent _ => false

end Gcit.Notify

namespace Gcit.Mail

open Gcit Gcit.Git Gcit.Flow Gcit.Library.Handlebars Gcit.Notify

def BODY_BYTE_CAP : Nat := 64 * 1024

def DEFAULT_SPOOL_DIR : String := "/var/mail"

inductive UserError where
  | containsSlash
  | containsParentDirectory
  | containsNul
  deriving DecidableEq

def validateUser (user : String) : Except UserError Unit :=
  if '\x00' ∈ user.toList then .error .containsNul
  else if "..".toList <:+: user.toList then .error .containsParentDirectory
  else if '/' ∈ user.toList then .error .containsSlash
  else .ok ()

/-- The registry is the same for all of them. -/
structure LocalMailNotifier where
  id : String
  user : String
  hostname : String
  fireOn : List FireEvent
  template : LocalMailTemplateConfig
  spoolDir : String
  valid : validateUser user = .ok ()

namespace LocalMailNotifier

def forTest (id user hostname : String) (fireOn : List FireEvent)
    (template : LocalMailTemplateConfig) (spoolDir : String) : Except UserError LocalMailNotifier :=
  match h : validateUser user with
  | .error e => .error e
  | .ok () => .ok ⟨id, user, hostname, fireOn, template, spoolDir, h⟩

def new (id user hostname : String) (fireOn : List FireEvent)
    (template : LocalMailTemplateConfig) : Except UserError LocalMailNotifier :=
  forTest id user hostname fireOn template DEFAULT_SPOOL_DIR

def firesOn (n : LocalMailNotifier) (event : FireEvent) : Bool := n.fireOn.contains event

/-- `PathBuf::join` with a user that has no slash. -/
def spoolPath (n : LocalMailNotifier) : String :=
  if n.spoolDir.toList.getLast?.getD '/' = '/' then n.spoolDir ++ n.user
  else n.spoolDir ++ "/" ++ n.user

end LocalMailNotifier

/-! ## What goes wrong with a spool -/

/-- Of the kinds of the standard library those that the table knows. -/
inductive ErrorKind where
  | notFound
  | permissionDenied
  | other
  deriving DecidableEq

structure IoError where
  kind : ErrorKind
  rawOsError : Option Nat
  text : String
  deriving DecidableEq

def EISDIR : Nat := 21
def EINVAL : Nat := 22
def ELOOP : Nat := 40

inductive WriteError where
  | lockTimeout
  | io (e : IoError)
  deriving DecidableEq

def mapIoError (err : IoError) (path : String) : NotifyError :=
  match err.kind with
  | .notFound => .permanent ("spool file " ++ path ++ " does not exist; create it via " ++
      "\x60useradd\x60/\x60mailx\x60/\x60touch " ++ path ++ "\x60")
  | .permissionDenied => .permanent ("permission denied writing to " ++ path ++
      "; ensure BindPaths=/var/mail in the gcit unit and the daemon\x27s user is in the mail group")
  | .other =>
    if err.rawOsError = some ELOOP then
      .permanent (path ++ " is a symlink; refused via O_NOFOLLOW. Resolve and retry.")
    else if err.rawOsError = some EISDIR then
      .permanent (path ++ " is a directory; spool path must be a regular file. " ++
        "Verify the destination user and the /var/mail layout.")
    else if err.rawOsError = some EINVAL then
      .permanent ("open(" ++ path ++ ") returned EINVAL; the underlying filesystem rejected " ++
        "the open flags. Verify /var/mail\x27s filesystem supports O_APPEND + O_NOFOLLOW.")
    else .transient ("io error on " ++ path ++ ": " ++ err.text) none

/-- What the join handle of a blocking task yields; the outer error is a task that did
not run to its end. -/
abbrev Joined := Except String (Except WriteError Unit)

def lockTimeoutError : NotifyError := .transient "spool lock not acquired within 5s" none

def classifyBlockingFailure (path : String) : Joined → NotifyError
  | .ok (.error (.io e)) => mapIoError e path
  | .ok (.error .lockTimeout) => lockTimeoutError
  | .ok (.ok ()) =>
    .transient "blocking task signaled phase-error but reported success" none
  | .error joinErr => .transient ("blocking task join failed: " ++ joinErr) none

/-! ## Up to the spool -/

section Prepare

variable (hb : Registry) (rfc3339 : DateTime → String)

/-- The message that goes to the spool, or how the call ends without one. -/
def LocalMailNotifier.prepare (n : LocalMailNotifier) (ctx : RunContext) (summary : RunReport)
    (isCancelled : Bool) (now : DateTime) :
    Except (Except NotifyError NotifyOutcome) Message :=
  if n.firesOn .runComplete = false then .error (.ok (.skipped .fireOnMismatch))
  else if isCancelled then
    .error (.error (.transient ("cancelled before lock acquired on " ++ n.spoolPath) none))
  else match renderMail hb rfc3339 n.template ctx summary with
    | .error e => .error (.error (.permanent e))
    | .ok (subject, body) =>
      if body.utf8ByteSize > BODY_BYTE_CAP then
        .error (.error (.permanent (s!"rendered body is {body.utf8ByteSize} bytes; cap is " ++
          s!"{BODY_BYTE_CAP} bytes; reduce template inputs or split the flow into smaller flows")))
      else .ok ⟨now, n.user.toList, n.hostname.toList, subject.toList, body.toList⟩

end Prepare

def messageBytes (formats : DateFormats) (m : Message) : List UInt8 :=
  (formatMessage formats m).flatMap String.utf8EncodeChar

/-- The records of a spool that is UTF-8. -/
def readSpool (contents : List UInt8) : Option (List (List Text)) :=
  (String.fromUTF8? contents.toByteArray).map fun s => records s.toList

theorem readSpool_utf8 (text : Text) :
    readSpool (text.flatMap String.utf8EncodeChar) = some (records text) := by
  have hbytes : (text.flatMap String.utf8EncodeChar).toByteArray =
      (String.ofList text).toByteArray := String.toByteArray_ofList.symm
  rw [readSpool, hbytes, Library.Utf8.fromUTF8?_toByteArray, Option.map_some, String.toList_ofList]

end Gcit.Mail
