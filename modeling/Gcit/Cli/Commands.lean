import Gcit.Control.Client
import Gcit.Supervisor.Listing

/-! # Commands over the control socket

`gcit reload`, `gcit status` and `gcit trigger` send one request each, print what comes back
and tell by their exit code how it went.
-/

namespace Gcit.Cli

open Std Gcit Gcit.Control Gcit.Library Gcit.Poll

def Exit.OK : UInt8 := 0
def Exit.USAGE : UInt8 := 64
def Exit.TEMPFAIL : UInt8 := 75

structure Output where
  stdout : List String
  stderr : List String
  code : UInt8
  deriving DecidableEq

/-- The connection, and the exchange on it. -/
abbrev Attempt := Except String (Except ClientError Response)

/-- What the commands do alike. -/
def finish (name socketPath : String) (print : Json → List String) : Attempt → Output
  | .error e => ⟨[], ["gcit " ++ name ++ ": cannot connect to " ++ socketPath ++ ": " ++ e ++
      " (is the daemon running?)"], Exit.TEMPFAIL⟩
  | .ok (.ok (.ok _ data)) => ⟨print data, [], Exit.OK⟩
  | .ok (.ok (.error _ message)) => ⟨[], ["gcit " ++ name ++ ": " ++ message], Exit.TEMPFAIL⟩
  | .ok (.error e) =>
    ⟨[], ["gcit " ++ name ++ ": transport error: " ++ e.message], Exit.TEMPFAIL⟩

inductive Format where
  | text
  | json

section

variable (number : Rat → List Char)

def asStr : Json → Option String
  | .string s => some s
  | _ => none

def asU64 : Json → Option Nat
  | .number q => if q.den = 1 ∧ 0 ≤ q.num ∧ q.num < 2 ^ 64 then some q.num.toNat else none
  | _ => none

def getField (name : String) : Json → Option Json
  | .object members => members.lookup name
  | _ => none

def errorLines : Option Json → List String
  | some (.object members) =>
    let err := Json.object members
    let at_ := ((getField "at" err).bind asStr).getD "?"
    let kind := ((getField "kind" err).bind asStr).getD "?"
    let msg := ((getField "message" err).bind asStr).getD ""
    ("  last_error[" ++ kind ++ "] " ++ at_ ++ ": " ++ msg) ::
      (((getField "retry_at" err).bind asStr).map ("    retry_at: " ++ ·)).toList
  | _ => []

/-- A count that is not zero. -/
def countLine (label : String) (n : Option Nat) : List String :=
  ((n.filter (0 < ·)).map fun n => label ++ toString n).toList

def entryLines (flow : String) (value : Json) : List String :=
  let state := ((getField "state" value).bind asStr).getD "(unknown)"
  (if Supervisor.isSyntheticDaemonKey flow then "[daemon] " ++ flow ++ ": " ++ state
    else flow ++ ": " ++ state) ::
    ((((getField "last_sha" value).bind asStr).map ("  last_sha: " ++ ·)).toList ++
    (((getField "last_poll_at" value).bind asStr).map ("  last_poll_at: " ++ ·)).toList ++
    countLine "  active_runs: " ((getField "active_runs" value).bind asU64) ++
    countLine "  notified_runs: " ((getField "notified_runs" value).bind asU64) ++
    errorLines (getField "last_error" value))

def renderText : Json → List String
  | .object [] => ["(no flows)"]
  | .object map => map.flatMap fun (flow, value) => entryLines flow value
  | data => [String.ofList (data.text number)]

def reload (socketPath : String) : Attempt → Output := finish "reload" socketPath fun _ => []

def status (pretty : Json → String) (socketPath : String) (format : Format) : Attempt → Output :=
  finish "status" socketPath fun data => match format with
    | .json => [pretty data]
    | .text => renderText number data

def trigger (pretty : Json → String) (socketPath flow : String) (attempt : Attempt) : Output :=
  if flow = "" then
    ⟨[], ["gcit trigger: FLOW name is required and must not be empty"], Exit.USAGE⟩
  else finish "trigger" socketPath (fun data => [pretty data]) attempt

end

/-! ## What the exit code tells -/

section

variable {crates : WireCrates} {t : Server} {as : List ServeEvent} {i : Nat} {x : Exchange}

end

/-! ## The text of a status -/

section

variable (rfc3339 : DateTime → String)

/-- What the text says of a flow, from its state and its last error. -/
def flowLines (flow : String) (state : Option FlowState) (error : Option FlowLastError) :
    List String :=
  let label := if error.isSome then "errored" else if state.isSome then "running" else "starting"
  (if Supervisor.isSyntheticDaemonKey flow then "[daemon] " ++ flow ++ ": " ++ label
    else flow ++ ": " ++ label) ::
    (((state.bind (·.lastSha)).map ("  last_sha: " ++ ·)).toList ++
    ((state.bind (·.lastPollAt)).map fun t => "  last_poll_at: " ++ rfc3339 t).toList ++
    countLine "  active_runs: " (state.map (·.activeRuns.length)) ++
    countLine "  notified_runs: " (state.map (·.notifiedRuns.length)) ++
    error.toList.flatMap fun e =>
      ("  last_error[" ++ e.kind ++ "] " ++ rfc3339 e.at_ ++ ": " ++ e.message) ::
        (e.retryAt.map fun t => "    retry_at: " ++ rfc3339 t).toList)

variable {rfc3339}

theorem renderText_object (number : Rat → List Char) (map : List (String × Json)) :
    renderText number (.object map) =
      if map = [] then ["(no flows)"] else map.flatMap fun (flow, value) => entryLines flow value := by
  cases map <;> rfl

theorem asU64_natCast {n : Nat} (h : n < 2 ^ 64) : asU64 (.number n) = some n := by
  have hnum : ((n : Rat).num : Int) < 2 ^ 64 := by
    rw [Rat.num_natCast]
    exact_mod_cast h
  rw [asU64, if_pos ⟨Rat.den_natCast n, by simp, hnum⟩, Rat.num_natCast, Int.toNat_natCast]

section

variable {flow : String} {flows : ExtTreeMap String FlowState} {errors : LastErrors}

theorem errorLines_renderOne :
    errorLines (getField "last_error" (renderOne rfc3339 flow flows errors)) =
      errors[flow]?.toList.flatMap fun e =>
        ("  last_error[" ++ e.kind ++ "] " ++ rfc3339 e.at_ ++ ": " ++ e.message) ::
          (e.retryAt.map fun t => "    retry_at: " ++ rfc3339 t).toList := by
  cases herr : errors[flow]? with
  | none => simp [renderOne, getField, List.lookup_cons, herr, Json.ofOption, errorLines]
  | some e =>
    cases hretry : e.retryAt <;>
      simp [renderOne, getField, List.lookup_cons, herr, Json.ofOption, errorLines, lastErrorValue,
        asStr, optRfc3339, hretry]

theorem count_renderOne {name : String} {count : FlowState → Nat}
    (hfield : getField name (renderOne rfc3339 flow flows errors) =
      some (.number (flows[flow]?.elim 0 fun state => count state)))
    (hcount : ∀ state, flows[flow]? = some state → count state < 2 ^ 64) (label : String) :
    countLine label ((getField name (renderOne rfc3339 flow flows errors)).bind asU64) =
      countLine label (flows[flow]?.map count) := by
  rw [hfield, Option.bind_some]
  cases hstate : flows[flow]? with
  | none =>
    have hzero : asU64 (.number 0) = some 0 := by
      simpa using asU64_natCast (Nat.two_pow_pos 64)
    rw [Option.elim_none, hzero]
    rfl
  | some state =>
    rw [Option.elim_some, asU64_natCast (hcount state hstate)]
    rfl

theorem entryLines_renderOne
    (hcounts : ∀ state : FlowState, flows[flow]? = some state →
      state.activeRuns.length < 2 ^ 64 ∧ state.notifiedRuns.length < 2 ^ 64) :
    entryLines flow (renderOne rfc3339 flow flows errors) =
      flowLines rfc3339 flow flows[flow]? errors[flow]? := by
  have hactive : countLine "  active_runs: "
      ((getField "active_runs" (renderOne rfc3339 flow flows errors)).bind asU64) =
      countLine "  active_runs: " (flows[flow]?.map (·.activeRuns.length)) :=
    count_renderOne (by simp [renderOne, getField]) (fun state h => (hcounts state h).1) _
  have hnotified : countLine "  notified_runs: "
      ((getField "notified_runs" (renderOne rfc3339 flow flows errors)).bind asU64) =
      countLine "  notified_runs: " (flows[flow]?.map (·.notifiedRuns.length)) :=
    count_renderOne (by simp [renderOne, getField, List.lookup_cons])
      (fun state h => (hcounts state h).2) _
  have hsha : (getField "last_sha" (renderOne rfc3339 flow flows errors)).bind asStr =
      flows[flow]?.bind (·.lastSha) := by
    cases hsha : flows[flow]?.bind (·.lastSha) <;>
      simp [renderOne, getField, List.lookup_cons, hsha, Json.ofOption, asStr]
  have hpoll : (getField "last_poll_at" (renderOne rfc3339 flow flows errors)).bind asStr =
      (flows[flow]?.bind (·.lastPollAt)).map rfc3339 := by
    cases hpoll : flows[flow]?.bind (·.lastPollAt) <;>
      simp [renderOne, getField, List.lookup_cons, hpoll, optRfc3339, Json.ofOption, asStr]
  have hlabel : (getField "state" (renderOne rfc3339 flow flows errors)).bind asStr =
      some (if errors[flow]?.isSome then "errored"
        else if flows[flow]?.isSome then "running" else "starting") := by
    cases herr : errors[flow]? <;> cases hstate : flows[flow]? <;>
      simp [renderOne, getField, List.lookup_cons, herr, hstate, asStr]
  rw [entryLines, hactive, hnotified, hsha, hpoll, hlabel, errorLines_renderOne, flowLines,
    Option.getD_some, Option.map_map]
  rfl

/-- Whatever is listed is rendered from its own state and error. -/
theorem getElem?_renderAll {names : List String} {key : String} {value : Json}
    (h : (renderAll rfc3339 names flows errors)[key]? = some value) :
    value = renderOne rfc3339 key flows errors := by
  let Rendered : ExtTreeMap String Json → Prop := fun out =>
    ∀ key value, out[key]? = some value → value = renderOne rfc3339 key flows errors
  have hinsert : ∀ (out : ExtTreeMap String Json) name, Rendered out →
      Rendered (out.insert name (renderOne rfc3339 name flows errors)) := by
    intro out name hout key value hkey
    rw [ExtTreeMap.getElem?_insert] at hkey
    split at hkey
    · next heq =>
      obtain rfl := Std.compare_eq_iff_eq.mp heq
      exact (Option.some.inj hkey).symm
    · exact hout key value hkey
  have hnames : Rendered (names.foldl (fun out name =>
      out.insert name (renderOne rfc3339 name flows errors)) ∅) :=
    List.foldlRecOn names _ (by simp [Rendered]) fun out hout name _ => hinsert out name hout
  have hall : Rendered (renderAll rfc3339 names flows errors) := by
    refine List.foldlRecOn errors.keys _ hnames fun out hout name _ => ?_
    show Rendered (if out.contains name then out
      else out.insert name (renderOne rfc3339 name flows errors))
    split
    · exact hout
    · exact hinsert out name hout
  exact hall key value h

variable {names : List String} {mirror : Writer.Mutex State} {data : Json}
  {number : Rat → List Char} {listed : Option String}

/-- The text that `gcit status` prints says of everything that the daemon lists, once each and
in the order of the names, what its state and its last error are; no field is missing. -/
theorem status_text (h : Control.status rfc3339 names errors mirror listed = .ok data)
    (hcounts : ∀ (flow : String) (state : FlowState), mirror.value.flows[flow]? = some state →
      state.activeRuns.length < 2 ^ 64 ∧ state.notifiedRuns.length < 2 ^ 64) :
    ∃ keys : List String, keys.Pairwise (fun a b => compare a b = .lt) ∧
      (∀ key, key ∈ keys ↔ match listed with
        | some flow => key = flow
        | none => key ∈ names ∨ key ∈ errors) ∧
      renderText number data = if keys = [] then ["(no flows)"] else keys.flatMap fun key =>
        flowLines rfc3339 key mirror.value.flows[key]? errors[key]? := by
  unfold Control.status at h
  split at h
  · cases h
  cases listed with
  | some flow =>
    simp only at h
    split at h
    · cases h
      refine ⟨[flow], List.pairwise_singleton _ _, fun key => List.mem_singleton, ?_⟩
      rw [if_neg (by simp), renderText_object, if_neg (by simp)]
      exact congrArg (· ++ []) (entryLines_renderOne (hcounts flow))
    · cases h
  | none =>
    cases h
    refine ⟨(renderAll rfc3339 names mirror.value.flows errors).keys, ExtTreeMap.ordered_keys,
      fun key => ExtTreeMap.mem_keys.trans mem_renderAll, ?_⟩
    rw [← ExtTreeMap.map_fst_toList_eq_keys, renderText_object, List.flatMap_map]
    refine if_congr List.map_eq_nil_iff.symm rfl (List.flatMap_congr fun (flow, value) hentry => ?_)
    obtain rfl := getElem?_renderAll (ExtTreeMap.mem_toList_iff_getElem?_eq_some.mp hentry)
    exact entryLines_renderOne (hcounts flow)

/-- A flow with an active run, and a reload that failed. -/
theorem two_entries_text :
    let linux : FlowState := { activeRuns := [⟨7, 0, none, none⟩] }
    let mirror : Writer.Mutex State :=
      ⟨{ State.default with flows := (∅ : ExtTreeMap String FlowState).insert "linux" linux }, false⟩
    let errors : LastErrors := (∅ : LastErrors).insert "(reload)" ⟨0, "config", "no flow", none⟩
    ∃ data keys, Control.status (fun _ => "now") ["linux"] errors mirror none = .ok data ∧
      (∀ key, key ∈ keys ↔ key ∈ ["linux"] ∨ key ∈ errors) ∧
      renderText Json.numeral data = if keys = [] then ["(no flows)"] else keys.flatMap fun key =>
        flowLines (fun _ => "now") key mirror.value.flows[key]? errors[key]? := by
  intro linux mirror errors
  have hstatus : Control.status (fun _ => "now") ["linux"] errors mirror none =
      .ok (.object (renderAll (fun _ => "now") ["linux"] mirror.value.flows errors).toList) := rfl
  have hcounts : ∀ (flow : String) (state : FlowState), mirror.value.flows[flow]? = some state →
      state.activeRuns.length < 2 ^ 64 ∧ state.notifiedRuns.length < 2 ^ 64 := by
    intro flow state h
    rw [ExtTreeMap.getElem?_insert] at h
    split at h
    · cases h
      exact ⟨Nat.one_lt_two_pow (by decide), Nat.two_pow_pos 64⟩
    · simp at h
  obtain ⟨keys, -, hkeys, htext⟩ := status_text hstatus hcounts
  exact ⟨_, keys, hstatus, hkeys, htext⟩

end

end

end Gcit.Cli
