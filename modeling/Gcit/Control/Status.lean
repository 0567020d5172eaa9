import Gcit.Library.JsonText
import Gcit.Poll.Loop
import Gcit.State.Writer

/-! # The status of the flows

`status` renders what the daemon knows of each flow: its entry in the state mirror
and the last error recorded for it, the error's message at full length.
-/

namespace Gcit.Control

open Std Gcit Gcit.Poll Gcit.Library

variable (rfc3339 : DateTime → String)

def optRfc3339 (t : Option DateTime) : Json := .ofOption (fun t => .string (rfc3339 t)) t

def lastErrorValue (e : FlowLastError) : Json :=
  .object [("at", .string (rfc3339 e.at_)), ("kind", .string e.kind),
    ("message", .string e.message), ("retry_at", optRfc3339 rfc3339 e.retryAt)]

/-- One flow, or one of the daemon's own keys. -/
def renderOne (name : String) (flowsState : ExtTreeMap String FlowState) (errors : LastErrors) :
    Json :=
  let st := flowsState[name]?
  let label := match errors[name]?, st with
    | some _, _ => "errored"
    | none, some _ => "running"
    | none, none => "starting"
  .object [("active_runs", .number (st.elim 0 (·.activeRuns.length))),
    ("cooldown_until", optRfc3339 rfc3339 (st.bind (·.cooldownUntil))),
    ("last_dispatched_at", optRfc3339 rfc3339 (st.bind (·.lastDispatchedAt))),
    ("last_error", .ofOption (lastErrorValue rfc3339) errors[name]?),
    ("last_poll_at", optRfc3339 rfc3339 (st.bind (·.lastPollAt))),
    ("last_sha", .ofOption .string (st.bind (·.lastSha))),
    ("notified_runs", .number (st.elim 0 (·.notifiedRuns.length))),
    ("state", .string label)]

/-- The flows by name, and the keys of errors that are no flow's. -/
def renderAll (names : List String) (flowsState : ExtTreeMap String FlowState)
    (errors : LastErrors) : ExtTreeMap String Json :=
  let render := fun (out : ExtTreeMap String Json) name =>
    out.insert name (renderOne rfc3339 name flowsState errors)
  let flows := names.foldl render ∅
  errors.keys.foldl (fun out key => if out.contains key then out else render out key) flows

def status (names : List String) (errors : LastErrors) (mirror : Writer.Mutex State)
    (flow : Option String) : Except String Json :=
  if mirror.poisoned then .error "state mirror mutex poisoned"
  else match flow with
    | some f =>
      if f ∈ names then
        .ok (.object [(f, renderOne rfc3339 f mirror.value.flows errors)])
      else .error ("flow `" ++ f ++ "` not running")
    | none => .ok (.object (renderAll rfc3339 names mirror.value.flows errors).toList)

variable {rfc3339}

/-- The status of a flow is never shorter than the message of its last error. -/
theorem length_message_le_renderOne {number : Rat → List Char} {name : String}
    {flowsState : ExtTreeMap String FlowState} {errors : LastErrors} {e : FlowLastError}
    (herror : errors[name]? = some e) :
    e.message.length ≤ ((renderOne rfc3339 name flowsState errors).text number).length := by
  calc e.message.length
    _ ≤ (Json.text number (.string e.message)).length := Json.length_le_text_string e.message
    _ ≤ ((lastErrorValue rfc3339 e).text number).length := by
      apply Json.length_le_text_object "message"
      simp
    _ ≤ ((renderOne rfc3339 name flowsState errors).text number).length := by
      apply Json.length_le_text_object "last_error"
      simp [herror, Json.ofOption]

theorem length_message_le_status {number : Rat → List Char} {names : List String}
    {errors : LastErrors} {mirror : Writer.Mutex State} {f : String} {e : FlowLastError} {data : Json}
    (herror : errors[f]? = some e)
    (h : status rfc3339 names errors mirror (some f) = .ok data) :
    e.message.length ≤ (data.text number).length := by
  unfold status at h
  split at h
  · cases h
  · simp only at h
    split at h
    · cases h
      exact (length_message_le_renderOne herror).trans
        (Json.length_le_text_object f (List.mem_singleton_self _))
    · cases h

end Gcit.Control
