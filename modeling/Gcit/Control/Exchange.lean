import Mathlib.Logic.Function.Basic
import Gcit.Library.Frames
import Gcit.Library.Transition
import Gcit.Control.Server

/-! # Clients of the control server

Any number of clients, each on a connection of its own. A client sends one request after
the other and gives up on a reply that does not come in time; what either side writes
arrives in pieces of any size, at any time. The connections share the gate of reloads.
-/

namespace Gcit.Control

open Gcit Gcit.Github Gcit.Library

def READ_TIMEOUT_SECS : Nat := 5

inductive ClientError where
  | sendFailed (e : String)
  | timedOut
  | closed
  | frame (e : String)
  | invalid (e : String)
  | idMismatch (want got : Uuid)
  deriving DecidableEq

def ClientError.message : ClientError → String
  | .sendFailed e => e
  | .timedOut => "control reply timed out after " ++ toString READ_TIMEOUT_SECS ++ "s"
  | .closed => "control connection closed before response"
  | .frame e => "frame error: " ++ e
  | .invalid e => e
  | .idMismatch want got =>
    "response id mismatch: want " ++ want.toText ++ " got " ++ got.toText

def Request.toJson : Request → Json
  | .trigger id flow dryRun => .object [("kind", .string "trigger"), ("id", .string id.toText),
      ("flow", .string flow), ("dry_run", .bool dryRun)]
  | .status id flow => .object [("kind", .string "status"), ("id", .string id.toText),
      ("flow", .ofOption .string flow)]
  | .reload id => .object [("kind", .string "reload"), ("id", .string id.toText)]
  | .version id => .object [("kind", .string "version"), ("id", .string id.toText)]

/-- The same but for the data, where a number may have lost precision. -/
def Response.Agrees : Response → Response → Prop
  | .ok id _, .ok id' _ => id = id'
  | .error id message, .error id' message' => id = id' ∧ message = message'
  | _, _ => False

/-- The codec that `build_codec` sets up, and the responses in frames. -/
structure WireCrates extends ControlCrates where
  codec : Frames.Codec UInt8 ByteArray String
  parseResponse : ByteArray → Except String Response

def WireCrates.body (crates : WireCrates) (j : Json) : ByteArray :=
  (String.ofList (j.text crates.number)).toUTF8

structure WireCrates.Lawful (crates : WireCrates) : Prop where
  codec : crates.codec.Lawful
  request : ∀ request : Request, crates.fromSlice (crates.body request.toJson) = .ok request
  response : ∀ response : Response, ∃ r,
    crates.parseResponse (crates.body response.toJson) = .ok r ∧ r.Agrees response

inductive ClientPc where
  | idle
  | writing (request : Request) (left : List UInt8)
  | waiting (request : Request)
  | gone

inductive ServerPc where
  | reading
  | handling (request : Request)
  /-- After its `last` answer the connection is closed. -/
  | answering (left : List UInt8) (last : Bool)
  | closed

/-- What became of a request. -/
inductive Outcome where
  | refused
  | returned (result : Except String Json)

def Outcome.response (request : Request) : Outcome → Response
  | .refused => .error request.id "reload rate-limited"
  | .returned result => .ofResult request.id result

/-- A connection with its client. -/
structure Exchange where
  client : ClientPc
  server : ServerPc
  toServer : List UInt8
  inbox : List UInt8
  toClient : List UInt8
  buffer : List UInt8
  /-- The requests in frames, from the first on. -/
  sent : List Request
  results : List (Request × Except ClientError Response)
  log : List (Request × Outcome)
  /-- How many replies the client has taken. -/
  replies : Nat

inductive ClientEvent where
  | send (request : Request) (e : String)
  | write (n : Nat)
  | flushed
  | writeFails (e : String)
  | read (n : Nat)
  | take
  | timeout
  | eof (remaining : Bool)
  | close

inductive ServerEvent where
  | read (n : Nat)
  | result (r : Except String Json)
  | write (n : Nat)
  | flushed
  /-- The peer is gone or too slow, or the server is cancelled. -/
  | leave

namespace Exchange

/-- A peer of another user is closed on at once. -/
def accept (peerUid ourUid : UInt32) : Exchange :=
  ⟨.idle, if peerUid ≠ ourUid then .closed else .reading, [], [], [], [], [], [], [], 0⟩

variable (crates : WireCrates)

/-- What `send` makes of a frame. -/
def reply (request : Request) (body : ByteArray) : Except ClientError Response :=
  match crates.parseResponse body with
  | .error e => .error (.invalid e)
  | .ok r => if r.id ≠ request.id then .error (.idMismatch request.id r.id) else .ok r

def settle (x : Exchange) (request : Request) (r : Except ClientError Response) (pc : ClientPc) :
    Exchange :=
  { x with client := pc, results := x.results ++ [(request, r)] }

def stepClient (x : Exchange) : ClientEvent → Option Exchange
  | .send request e => match x.client with
    | .idle => match crates.codec.encode (crates.body request.toJson) with
      | some bytes => some { x with client := .writing request bytes, sent := x.sent ++ [request] }
      | none => some (x.settle request (.error (.sendFailed e)) .idle)
    | _ => none
  | .write n => match x.client with
    | .writing request left => some { x with
        client := .writing request (left.drop n), toServer := x.toServer ++ left.take n }
    | _ => none
  | .flushed => match x.client with
    | .writing request [] => some { x with client := .waiting request }
    | _ => none
  | .writeFails e => match x.client with
    | .writing request _ => some (x.settle request (.error (.sendFailed e)) .gone)
    | _ => none
  | .read n => match x.client with
    | .waiting _ => some { x with
        buffer := x.buffer ++ x.toClient.take n, toClient := x.toClient.drop n }
    | _ => none
  | .take => match x.client, crates.codec.decode x.buffer with
    | .waiting request, .frame body rest =>
      some ({ x with buffer := rest, replies := x.replies + 1 }.settle request
        (reply crates request body) .idle)
    | .waiting request, .invalid e => some (x.settle request (.error (.frame e)) .gone)
    | _, _ => none
  | .timeout => match x.client with
    | .waiting request => some (x.settle request (.error .timedOut) .idle)
    | _ => none
  | .eof remaining => match x.client, x.server, x.toClient with
    | .waiting request, .closed, [] =>
      if remaining = true then
        if x.buffer ≠ [] then
          some (x.settle request (.error (.frame "bytes remaining on stream")) .gone)
        else none
      else some (x.settle request (.error .closed) .gone)
    | _, _, _ => none
  | .close => match x.client with
    | .idle => some { x with client := .gone }
    | _ => none

/-- A response too long for a frame ends the connection. -/
def answer (x : Exchange) (response : Response) (last : Bool) : Exchange :=
  match crates.codec.encode (crates.body response.toJson) with
  | some bytes => { x with server := .answering bytes last }
  | none => { x with server := .closed }

def stepServer (x : Exchange) : ServerEvent → Option Exchange
  | .read n => match x.server with
    | .reading => some { x with
        inbox := x.inbox ++ x.toServer.take n, toServer := x.toServer.drop n }
    | _ => none
  | .result r => match x.server with
    | .handling request =>
      let y : Exchange := { x with log := x.log ++ [(request, .returned r)] }
      some (y.answer crates ((Outcome.returned r).response request) false)
    | _ => none
  | .write n => match x.server with
    | .answering left last => some { x with
        server := .answering (left.drop n) last, toClient := x.toClient ++ left.take n }
    | _ => none
  | .flushed => match x.server with
    | .answering [] last => some { x with server := if last then .closed else .reading }
    | _ => none
  | .leave => match x.server with
    | .reading | .answering .. => some { x with server := .closed }
    | _ => none

/-- The next frame, with what the gate says if it is a reload. -/
def serverTake (x : Exchange) (allowed : Bool) : Option Exchange :=
  match x.server, crates.codec.decode x.inbox with
  | .reading, .invalid e => some (x.answer crates (.error .nil ("frame error: " ++ e)) true)
  | .reading, .frame body rest => match crates.fromSlice body with
    | .error e => some ({ x with inbox := rest }.answer crates
        (.error .nil ("invalid request: " ++ e)) false)
    | .ok (.reload id) =>
      if allowed = true then some { x with inbox := rest, server := .handling (.reload id) }
      else
        let y : Exchange := { x with inbox := rest, log := x.log ++ [(.reload id, .refused)] }
        some (y.answer crates (Outcome.refused.response (.reload id)) false)
    | .ok request => some { x with inbox := rest, server := .handling request }
  | _, _ => none

end Exchange

def ServerPc.reloads : ServerPc → Bool
  | .handling (.reload _) => true
  | _ => false

/-- All connections, and the gate. -/
structure Server where
  lastReload : Option Instant
  /-- The reloads that the gate let through. -/
  accepted : List (Nat × Instant)
  exchanges : Nat → Option Exchange

inductive ServeEvent where
  | connect (i : Nat) (peerUid ourUid : UInt32)
  | client (i : Nat) (e : ClientEvent)
  | server (i : Nat) (e : ServerEvent)
  /-- `now` was read some time before. -/
  | take (i : Nat) (now : Instant)

namespace Server

def start : Server := ⟨none, [], fun _ => none⟩

def put (s : Server) (i : Nat) (x : Exchange) : Nat → Option Exchange :=
  Function.update s.exchanges i (some x)

def step (crates : WireCrates) (s : Server) : ServeEvent → Option Server
  | .connect i peerUid ourUid => match s.exchanges i with
    | none => some { s with exchanges := s.put i (.accept peerUid ourUid) }
    | some _ => none
  | .client i e => (s.exchanges i).bind fun x =>
    (x.stepClient crates e).map fun y => { s with exchanges := s.put i y }
  | .server i e => (s.exchanges i).bind fun x =>
    (x.stepServer crates e).map fun y => { s with exchanges := s.put i y }
  | .take i now => (s.exchanges i).bind fun x =>
    (x.serverTake crates (tryAcquire s.lastReload now)).map fun y =>
      if y.server.reloads = true then
        ⟨some now, s.accepted ++ [(i, now)], s.put i y⟩
      else { s with exchanges := s.put i y }

end Server

end Gcit.Control
