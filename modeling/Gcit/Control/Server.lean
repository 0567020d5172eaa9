import Gcit.Control.Status
import Gcit.Github.Dispatcher

/-! # Serving a control connection

`handle_connection` reads a frame, answers it and reads on. Requests and responses go
through one codec, with one cap on the length of a frame. A connection is played
against what comes in on it; with a frame come the handler's result, what the gate of
reloads shows at that time, and whether the peer is still there for the reply.
-/

namespace Gcit.Control

open Std Gcit Gcit.Git Gcit.Github Gcit.Poll Gcit.Library

def MAX_FRAME_LEN : Nat := 64 * 1024

def RELOAD_WINDOW : Duration := seconds 1

/-- A reading of the monotonic clock. -/
abbrev Instant := Nat

inductive Request where
  | trigger (id : Uuid) (flow : String) (dryRun : Bool)
  | status (id : Uuid) (flow : Option String)
  | reload (id : Uuid)
  | version (id : Uuid)
  deriving DecidableEq

def Request.id : Request → Uuid
  | .trigger id .. | .status id _ | .reload id | .version id => id

inductive Response where
  | ok (id : Uuid) (data : Json)
  | error (id : Uuid) (message : String)
  deriving DecidableEq

def Response.id : Response → Uuid
  | .ok id _ | .error id _ => id

def Response.toJson : Response → Json
  | .ok id data => .object [("kind", .string "ok"), ("id", .string id.toText), ("data", data)]
  | .error id message =>
    .object [("kind", .string "error"), ("id", .string id.toText), ("message", .string message)]

/-- A frame as the codec hands it out, or takes it. -/
structure Frame where
  body : ByteArray
  fits : body.size ≤ MAX_FRAME_LEN

/-- One request frame and what answering it meets. -/
structure Turn where
  frame : Frame
  result : Except String Json
  lastReload : Option Instant
  now : Instant
  taken : Bool

inductive Incoming where
  | frame (t : Turn)
  | frameError (e : String) (taken : Bool)
  | timedOut
  | peerClosed
  | cancelled

/-- A response, under the number of the frame that was being answered. -/
structure Reply where
  number : Nat
  response : Response

structure Connection where
  read : Nat
  replies : List Reply
  closed : Bool

/-- `serde_json`: the requests in frames, and the text of a number. -/
structure ControlCrates where
  fromSlice : ByteArray → Except String Request
  number : Rat → List Char

/-- `ReloadGate::try_acquire`. -/
def tryAcquire (last : Option Instant) (now : Instant) : Bool :=
  match last with
  | some prev => decide (RELOAD_WINDOW ≤ now - prev)
  | none => true

def Response.ofResult (id : Uuid) : Except String Json → Response
  | .ok data => .ok id data
  | .error message => .error id message

def dispatch (req : Request) (t : Turn) : Response :=
  match req with
  | .reload id =>
    if tryAcquire t.lastReload t.now then .ofResult id t.result
    else .error id "reload rate-limited"
  | .trigger id .. | .status id _ | .version id => .ofResult id t.result

variable (crates : ControlCrates)

def respond (t : Turn) : Response :=
  match crates.fromSlice t.frame.body with
  | .ok request => dispatch request t
  | .error e => .error .nil ("invalid request: " ++ e)

/-- The codec can encode the response. -/
def Fits (r : Response) : Prop := utf8Length (r.toJson.text crates.number) ≤ MAX_FRAME_LEN

instance decidableFits (r : Response) : Decidable (Fits crates r) :=
  inferInstanceAs (Decidable (utf8Length (r.toJson.text crates.number) ≤ MAX_FRAME_LEN))

namespace Connection

/-- A peer of another user is closed on at once. -/
def accept (peerUid ourUid : UInt32) : Connection := ⟨0, [], decide (peerUid ≠ ourUid)⟩

def step (c : Connection) (e : Incoming) : Connection :=
  if c.closed then c
  else match e with
    | .frame t =>
      if t.taken ∧ Fits crates (respond crates t) then
        { c with
          read := c.read + 1
          replies := c.replies ++ [⟨c.read, respond crates t⟩] }
      else { c with closed := true }
    | .frameError e taken =>
      let resp := Response.error .nil ("frame error: " ++ e)
      if taken ∧ Fits crates resp then
        { c with
          replies := c.replies ++ [⟨c.read, resp⟩]
          closed := true }
      else { c with closed := true }
    | .timedOut | .peerClosed | .cancelled => { c with closed := true }

end Connection

def handleConnection (peerUid ourUid : UInt32) (events : List Incoming) : Connection :=
  events.foldl (Connection.step crates) (.accept peerUid ourUid)

/-- The frames that come in before the stream ends, the peer closes or the server is
cancelled. -/
def delivered : List Incoming → List Turn
  | .frame t :: events => if t.taken then t :: delivered events else []
  | _ => []

/-- The replies come in the order of the frames, no two to one frame, and each frame that
is a request has one under its id. -/
def OneReplyEach (turns : List Turn) (replies : List Reply) : Prop :=
  (replies.map Reply.number).Pairwise (· < ·) ∧
    ∀ (i : Nat) (t : Turn) (request : Request), turns[i]? = some t →
      crates.fromSlice t.frame.body = .ok request →
        ∃ reply ∈ replies, reply.number = i ∧ reply.response.id = request.id

/-- Up to each request, the responses fit into a frame. -/
def RepliesFit (turns : List Turn) : Prop :=
  ∀ (i : Nat) (t : Turn) (request : Request), turns[i]? = some t →
    crates.fromSlice t.frame.body = .ok request →
      ∀ j, j ≤ i → ∀ u, turns[j]? = some u → Fits crates (respond crates u)

variable {crates}

theorem id_dispatch (req : Request) (t : Turn) : (dispatch req t).id = req.id := by
  have hresult (id : Uuid) : (Response.ofResult id t.result).id = id := by
    cases t.result <;> rfl
  cases req with
  | trigger | status | version => exact hresult _
  | reload id =>
    simp only [dispatch]
    split
    · exact hresult id
    · rfl

/-- The replies to frames from number `n` on: up to the first that does not fit. -/
def served (crates : ControlCrates) (n : Nat) : List Turn → List Reply
  | [] => []
  | t :: ts =>
    if Fits crates (respond crates t) then ⟨n, respond crates t⟩ :: served crates (n + 1) ts else []

theorem mem_served {n : Nat} {turns : List Turn} {reply : Reply} :
    reply ∈ served crates n turns ↔
      ∃ i t, turns[i]? = some t ∧ reply = ⟨n + i, respond crates t⟩ ∧
        ∀ j, j ≤ i → ∀ u, turns[j]? = some u → Fits crates (respond crates u) := by
  induction turns generalizing n with
  | nil => simp [served]
  | cons t ts ih =>
    unfold served
    split
    · next hfits =>
      rw [List.mem_cons, ih]
      constructor
      · rintro (rfl | ⟨i, u, hu, rfl, hall⟩)
        · refine ⟨0, t, rfl, rfl, fun j hj u hu => ?_⟩
          obtain rfl := Nat.le_zero.mp hj
          obtain rfl := Option.some.inj hu
          exact hfits
        · refine ⟨i + 1, u, hu, by rw [Nat.add_assoc, Nat.add_comm 1 i], fun j hj v hv => ?_⟩
          cases j with
          | zero =>
            obtain rfl := Option.some.inj hv
            exact hfits
          | succ j => exact hall j (Nat.le_of_succ_le_succ hj) v hv
      · rintro ⟨i, u, hu, rfl, hall⟩
        cases i with
        | zero =>
          obtain rfl := Option.some.inj hu
          exact .inl rfl
        | succ i =>
          refine .inr ⟨i, u, hu, by rw [Nat.add_assoc, Nat.add_comm 1 i], fun j hj v hv => ?_⟩
          exact hall (j + 1) (Nat.succ_le_succ hj) v hv
    · next hfits =>
      constructor
      · intro h
        cases h
      · rintro ⟨i, u, -, -, hall⟩
        exact absurd (hall 0 (Nat.zero_le i) t rfl) hfits

theorem served_sorted (n : Nat) (turns : List Turn) :
    ((served crates n turns).map Reply.number).Pairwise (· < ·) := by
  induction turns generalizing n with
  | nil => exact .nil
  | cons t ts ih =>
    unfold served
    split
    · refine .cons (fun m hm => ?_) (ih (n + 1))
      obtain ⟨reply, hreply, rfl⟩ := List.mem_map.mp hm
      obtain ⟨i, u, -, rfl, -⟩ := mem_served.mp hreply
      simp only
      omega
    · exact .nil

theorem foldl_closed {c : Connection} (h : c.closed = true) (events : List Incoming) :
    events.foldl (Connection.step crates) c = c := by
  induction events with
  | nil => rfl
  | cons e events ih =>
    have hstep : c.step crates e = c := if_pos h
    rw [List.foldl_cons, hstep, ih]

/-- An open connection answers the delivered frames as far as the replies fit, and may
then tell of a broken frame. -/
theorem replies_foldl {c : Connection} (h : c.closed = false) (events : List Incoming) :
    ∃ rest, (events.foldl (Connection.step crates) c).replies =
        c.replies ++ (served crates c.read (delivered events) ++ rest) ∧
      (rest.map Reply.number).Pairwise (· < ·) ∧
      ∀ reply ∈ rest, reply.number = c.read + (delivered events).length := by
  induction events generalizing c with
  | nil => exact ⟨[], by simp [delivered, served], .nil, nofun⟩
  | cons e events ih =>
    rw [List.foldl_cons]
    cases e with
    | frame t =>
      by_cases htaken : t.taken = true
      · rw [delivered, if_pos htaken]
        by_cases hfits : Fits crates (respond crates t)
        · have hstep : c.step crates (.frame t) = { c with
              read := c.read + 1
              replies := c.replies ++ [⟨c.read, respond crates t⟩] } := by
            simp [Connection.step, h, htaken, hfits]
          have hstill : (c.step crates (.frame t)).closed = false := by rw [hstep, h]
          obtain ⟨rest, hreplies, hsorted, hnumber⟩ := ih hstill
          refine ⟨rest, ?_, hsorted, fun reply hreply => ?_⟩
          · rw [hreplies, hstep, served, if_pos hfits]
            simp
          · rw [hnumber reply hreply, hstep, List.length_cons]
            exact Nat.succ_add_eq_add_succ c.read _
        · have hclosed : (c.step crates (.frame t)).closed = true := by
            simp [Connection.step, h, hfits]
          rw [foldl_closed hclosed, served, if_neg hfits]
          exact ⟨[], by simp [Connection.step, h, hfits], .nil, nofun⟩
      · have hclosed : (c.step crates (.frame t)).closed = true := by
          simp [Connection.step, h, htaken]
        rw [foldl_closed hclosed, delivered, if_neg htaken]
        exact ⟨[], by simp [Connection.step, h, htaken, served], .nil, nofun⟩
    | frameError e taken =>
      have hclosed : (c.step crates (.frameError e taken)).closed = true := by
        simp only [Connection.step, h, Bool.false_eq_true, if_false]
        split <;> rfl
      rw [foldl_closed hclosed]
      simp only [Connection.step, h, Bool.false_eq_true, if_false]
      split
      · refine ⟨[⟨c.read, .error .nil ("frame error: " ++ e)⟩], rfl, List.pairwise_singleton _ _, ?_⟩
        rintro reply hreply
        obtain rfl := List.mem_singleton.mp hreply
        rfl
      · exact ⟨[], by simp [delivered, served], .nil, nofun⟩
    | timedOut | peerClosed | cancelled =>
      rw [foldl_closed (by simp [Connection.step, h])]
      exact ⟨[], by simp [Connection.step, h, delivered, served], .nil, nofun⟩

/-- Every request is answered in its turn, once and under its id, exactly if the
responses up to it fit into a frame. -/
theorem one_reply_each_iff (crates : ControlCrates) (uid : UInt32) (events : List Incoming) :
    OneReplyEach crates (delivered events) (handleConnection crates uid uid events).replies ↔
      RepliesFit crates (delivered events) := by
  have hopen : (Connection.accept uid uid).closed = false := by simp [Connection.accept]
  obtain ⟨rest, hreplies, hsorted, hnumber⟩ := replies_foldl (c := .accept uid uid) hopen events
  have hreplies : (handleConnection crates uid uid events).replies =
      served crates 0 (delivered events) ++ rest := hreplies
  have hlater : ∀ reply ∈ rest, reply.number = (delivered events).length := fun reply hreply =>
    (hnumber reply hreply).trans (Nat.zero_add _)
  rw [OneReplyEach, hreplies]
  constructor
  · rintro ⟨-, hanswered⟩ i t request ht hrequest
    obtain ⟨reply, hreply, rfl, -⟩ := hanswered i t request ht hrequest
    rcases List.mem_append.mp hreply with hserved | hrest
    · obtain ⟨i, u, -, rfl, hfits⟩ := mem_served.mp hserved
      simpa using hfits
    · have hlt := (List.getElem?_eq_some_iff.mp ht).1
      rw [hlater reply hrest] at hlt
      exact absurd hlt (Nat.lt_irrefl _)
  · intro hfits
    constructor
    · rw [List.map_append, List.pairwise_append]
      refine ⟨served_sorted 0 _, hsorted, fun m hm n hn => ?_⟩
      obtain ⟨reply, hreply, rfl⟩ := List.mem_map.mp hm
      obtain ⟨later, hlast, rfl⟩ := List.mem_map.mp hn
      obtain ⟨i, u, hu, rfl, -⟩ := mem_served.mp hreply
      rw [hlater later hlast]
      have hlt := (List.getElem?_eq_some_iff.mp hu).1
      simpa using hlt
    · intro i t request ht hrequest
      refine ⟨⟨i, respond crates t⟩, List.mem_append_left _ (mem_served.mpr ?_), rfl, ?_⟩
      · exact ⟨i, t, ht, by rw [Nat.zero_add], hfits i t request ht hrequest⟩
      · simp only [respond, hrequest]
        exact id_dispatch request t

/-- The status of a flow whose last error alone fills a frame cannot be sent. -/
theorem not_fits_status {rfc3339 : DateTime → String} {names : List String} {errors : LastErrors}
    {mirror : Writer.Mutex State} {f : String} {e : FlowLastError} {data : Json} {id : Uuid}
    (herror : errors[f]? = some e) (hlong : MAX_FRAME_LEN < e.message.length)
    (h : status rfc3339 names errors mirror (some f) = .ok data) :
    ¬ Fits crates (.ok id data) := by
  intro hfits
  have hresponse : (data.text crates.number).length ≤
      ((Response.ok id data).toJson.text crates.number).length := by
    apply Json.length_le_text_object "data"
    simp
  have hmessage : e.message.length ≤ (data.text crates.number).length :=
    length_message_le_status herror h
  have hbytes := length_le_utf8Length ((Response.ok id data).toJson.text crates.number)
  unfold Fits at hfits
  omega

/-- A poll of the flow failed with a message longer than a frame. -/
def longError : FlowLastError :=
  ⟨0, "git_poll_failed", String.ofList (List.replicate (MAX_FRAME_LEN + 1) 'x'), none⟩

def longStatus : Json :=
  .object [("linux", renderOne (fun _ => "1970-01-01T00:00:00+00:00") "linux" ∅
    ((∅ : LastErrors).insert "linux" longError))]

def statusRequest : Frame where
  body := ("\x7b\"kind\":\"status\",\"id\":\"00000000-0000-0000-0000-000000000000\"," ++
    "\"flow\":\"linux\"\x7d").toUTF8
  fits := by decide

def statusCrates : ControlCrates where
  fromSlice body :=
    if body.data = statusRequest.body.data then .ok (.status .nil (some "linux"))
    else .error "expected value at line 1 column 1"
  number q := (toString q.num).toList

/-- The status of one flow, asked for once: the connection ends without a reply. -/
theorem long_status_unanswered :
    status (fun _ => "1970-01-01T00:00:00+00:00") ["linux"]
        ((∅ : LastErrors).insert "linux" longError) ⟨State.default, false⟩ (some "linux") =
      .ok longStatus ∧
    ¬ OneReplyEach statusCrates (delivered [.frame ⟨statusRequest, .ok longStatus, none, 0, true⟩])
      (handleConnection statusCrates 0 0
        [.frame ⟨statusRequest, .ok longStatus, none, 0, true⟩]).replies := by
  have hstatus : status (fun _ => "1970-01-01T00:00:00+00:00") ["linux"]
      ((∅ : LastErrors).insert "linux" longError) ⟨State.default, false⟩ (some "linux") =
      .ok longStatus := rfl
  have herror : ((∅ : LastErrors).insert "linux" longError)["linux"]? = some longError := by simp
  have hlong : MAX_FRAME_LEN < longError.message.length := by
    simp [longError]
  have hrequest : statusCrates.fromSlice statusRequest.body =
      .ok (.status .nil (some "linux")) := by
    simp [statusCrates]
  have hrespond : respond statusCrates ⟨statusRequest, .ok longStatus, none, 0, true⟩ =
      .ok .nil longStatus := by
    simp [respond, hrequest, dispatch, Response.ofResult]
  have hnot : ¬ Fits statusCrates (.ok .nil longStatus) := not_fits_status herror hlong hstatus
  refine ⟨hstatus, ?_⟩
  rintro ⟨-, hanswered⟩
  obtain ⟨reply, hreply, -⟩ := hanswered 0 _ (.status .nil (some "linux")) rfl hrequest
  simp [handleConnection, Connection.accept, Connection.step, hrespond, hnot] at hreply

end Gcit.Control
