import Mathlib.Data.List.Nodup
import Gcit.Library.Trace
import Gcit.Github.Markers
import Gcit.Control.Protocol

/-! # What a client makes of its replies

The bytes on the way in either direction are those of whole frames, so the server takes
the requests as they were sent, each once and in order, and the reply a client accepts is
the one to its request, also after replies it gave up on.
-/

namespace Gcit.Control

open Gcit Gcit.Github Gcit.Library Gcit.Library.Frames

def ClientPc.left : ClientPc → List UInt8
  | .writing _ left => left
  | .idle | .waiting _ | .gone => []

/-- The request a client is sending. -/
def ClientPc.current : ClientPc → List Request
  | .writing request _ | .waiting request => [request]
  | .idle | .gone => []

def ServerPc.left : ServerPc → List UInt8
  | .answering left _ => left
  | .reading | .handling _ | .closed => []

def ServerPc.handed : ServerPc → List Request
  | .handling request => [request]
  | .reading | .answering .. | .closed => []

theorem id_response (request : Request) (o : Outcome) : (o.response request).id = request.id := by
  cases o with
  | refused => rfl
  | returned result => cases result <;> rfl

theorem id_of_agrees {r r' : Response} (h : r.Agrees r') : r.id = r'.id := by
  cases r <;> cases r'
  · exact h
  · exact h.elim
  · exact h.elim
  · exact h.1

namespace Exchange

/-- The requests that the server has read. -/
def taken (x : Exchange) : List Request := x.log.map Prod.fst ++ x.server.handed

def answers (x : Exchange) : List Response := x.log.map fun entry => entry.2.response entry.1

def GaveUp (x : Exchange) : Prop := ∃ request, (request, .error .timedOut) ∈ x.results

/-- A client sees the reply to another request only after one it gave up on. -/
def Apart (x : Exchange) : Prop :=
  ∀ pre request want got post,
    x.results = pre ++ (request, .error (.idMismatch want got)) :: post →
      ∃ request', (request', .error .timedOut) ∈ pre

variable (crates : WireCrates)

/-- A reply the client accepted is the server's, to the request of that id; an error is
neither of a frame nor of its text. -/
def Explains (x : Exchange) : Request × Except ClientError Response → Prop
  | (request, .ok r) => request ∈ x.sent ∧ r.id = request.id ∧ ∃ entry ∈ x.log,
      crates.parseResponse (crates.body (entry.2.response entry.1).toJson) = .ok r
  | (_, .error (.frame e)) => e = "bytes remaining on stream"
  | (_, .error (.invalid _)) => False
  | (_, .error (.sendFailed _)) | (_, .error .timedOut) | (_, .error .closed)
  | (_, .error (.idMismatch ..)) => True

structure Sound (x : Exchange) : Prop where
  requests : InFlight crates.codec (x.sent.map fun r => crates.body r.toJson) x.taken.length
    (x.inbox ++ (x.toServer ++ x.client.left)) (x.client ≠ .gone)
  replies : InFlight crates.codec (x.answers.map fun r => crates.body r.toJson) x.replies
    (x.buffer ++ (x.toClient ++ x.server.left)) (x.server ≠ .closed)
  order : x.taken <+: x.sent
  current : ∃ settled, x.sent = settled ++ x.client.current ∧
    (x.client ≠ .gone → ¬x.GaveUp → settled.length = x.replies)
  results : ∀ entry ∈ x.results, Explains crates x entry
  mismatch : x.Apart

variable {crates}

theorem sound_accept (peerUid ourUid : UInt32) : Sound crates (accept peerUid ourUid) := by
  have htaken : (accept peerUid ourUid).taken = [] := by
    unfold taken accept
    split <;> rfl
  have hleft : (accept peerUid ourUid).server.left = [] := by
    unfold accept
    split <;> rfl
  refine ⟨?_, ?_, ?_, ⟨[], rfl, fun _ _ => rfl⟩, by simp [accept],
    by simp [accept, Apart]⟩
  · rw [htaken]
    exact .start _ _
  · rw [hleft]
    exact .start _ _
  · rw [htaken]
    exact List.nil_prefix

theorem Explains.mono {x y : Exchange} {entry : Request × Except ClientError Response}
    (h : Explains crates x entry) (hsent : x.sent ⊆ y.sent) (hlog : x.log ⊆ y.log) :
    Explains crates y entry := by
  obtain ⟨request, r⟩ := entry
  match r, h with
  | .ok r, ⟨hrequest, hid, e, he, hparse⟩ => exact ⟨hsent hrequest, hid, e, hlog he, hparse⟩
  | .error (.frame e), h => exact h
  | .error (.sendFailed e), _ | .error .timedOut, _ | .error .closed, _
  | .error (.idMismatch ..), _ => trivial

section

variable {x y : Exchange}

/-- A result that is no mismatch says nothing about the ones before. -/
theorem mismatch_settle {request : Request} {r : Except ClientError Response} {pc : ClientPc}
    (h : x.Apart) (hr : ∀ want got, r = .error (.idMismatch want got) → x.GaveUp) :
    (x.settle request r pc).Apart := by
  intro pre request' want got post heq
  rcases Trace.concat_eq_append_cons heq with ⟨rfl, hlast⟩ | ⟨post', hsplit⟩
  · exact hr want got (Prod.ext_iff.mp hlast).2
  · exact h pre request' want got post' hsplit

theorem take_append_drop_append (n : Nat) (bytes rest : List UInt8) :
    bytes.take n ++ (bytes.drop n ++ rest) = bytes ++ rest := by
  rw [← List.append_assoc, List.take_append_drop]

/-- The answer that the client takes out of the stream next. -/
theorem next_answer (hcrates : crates.Lawful) (h : Sound crates x) {body : ByteArray}
    {rest : List UInt8} (hdecode : crates.codec.decode x.buffer = .frame body rest) :
    ∃ entry r, x.log[x.replies]? = some entry ∧
      body = crates.body (entry.2.response entry.1).toJson ∧
      crates.parseResponse body = .ok r ∧ r.id = entry.1.id := by
  obtain ⟨hnext, -⟩ := h.replies.take hcrates.codec hdecode
  rw [answers, List.map_map, List.getElem?_map] at hnext
  obtain ⟨entry, hentry, rfl⟩ := Option.map_eq_some_iff.mp hnext
  obtain ⟨r, hr, hagrees⟩ := hcrates.response (entry.2.response entry.1)
  exact ⟨entry, r, hentry, rfl, hr, (id_of_agrees hagrees).trans (id_response entry.1 entry.2)⟩

/-- As long as no reply was given up on, the next one is to the current request. -/
theorem next_is_current {settled : List Request} {request : Request} {entry : Request × Outcome}
    (h : Sound crates x) (hsent : x.sent = settled ++ [request])
    (hlength : settled.length = x.replies) (hentry : x.log[x.replies]? = some entry) :
    entry.1 = request := by
  have htaken : x.taken[x.replies]? = some entry.1 := by
    have hlt : x.replies < (x.log.map Prod.fst).length := by
      simpa using (List.getElem?_eq_some_iff.mp hentry).1
    rw [taken, List.getElem?_append_left hlt, List.getElem?_map, hentry]
    rfl
  have hsame : x.sent[x.replies]? = some entry.1 := by
    obtain ⟨unread, hunread⟩ := h.order
    rw [← hunread, List.getElem?_append_left (List.getElem?_eq_some_iff.mp htaken).1, htaken]
  rw [hsent, ← hlength, List.getElem?_append_right (Nat.le_refl _)] at hsame
  simpa using hsame.symm

theorem explains_settle {request : Request} {r : Except ClientError Response} {pc : ClientPc}
    (h : ∀ entry ∈ x.results, Explains crates x entry) (hr : Explains crates x (request, r)) :
    ∀ entry ∈ (x.settle request r pc).results, Explains crates (x.settle request r pc) entry := by
  intro entry hentry
  rcases List.mem_append.mp hentry with hold | hnew
  · exact (h entry hold).mono (List.Subset.refl _) (List.Subset.refl _)
  · obtain rfl := List.mem_singleton.mp hnew
    exact hr.mono (List.Subset.refl _) (List.Subset.refl _)

theorem not_gaveUp_of_settle {request : Request} {r : Except ClientError Response} {pc : ClientPc}
    (h : ¬(x.settle request r pc).GaveUp) : ¬x.GaveUp ∧ r ≠ .error .timedOut := by
  constructor
  · rintro ⟨request', hmem⟩
    exact h ⟨request', List.mem_append_left _ hmem⟩
  · rintro rfl
    exact h ⟨request, List.mem_append_right _ (List.mem_singleton_self _)⟩

/-- A client that drops its connection leaves what it was sending unfinished. -/
theorem sound_settle_gone {request : Request} {r : Except ClientError Response}
    (h : Sound crates x) (hr : Explains crates x (request, r))
    (hmismatch : ∀ want got, r ≠ .error (.idMismatch want got)) :
    Sound crates (x.settle request r .gone) where
  requests := by
    have hstream := h.requests
    rw [← List.append_assoc] at hstream
    have hquit : InFlight crates.codec (x.sent.map fun r => crates.body r.toJson) x.taken.length
        (x.inbox ++ x.toServer) (ClientPc.gone ≠ .gone) := hstream.quit (not_not.mpr rfl)
    simpa [settle, ClientPc.left, taken] using hquit
  replies := h.replies
  order := h.order
  current := ⟨x.sent, by simp [settle, ClientPc.current], fun hne => absurd rfl hne⟩
  results := explains_settle h.results hr
  mismatch := mismatch_settle h.mismatch fun want got heq => absurd heq (hmismatch want got)

/-- A call that ends while the connection stays: its request is sent, or never was. -/
theorem sound_settle_idle {request : Request} {r : Except ClientError Response}
    (h : Sound crates x) (hopen : x.client ≠ .gone) (hleft : x.client.left = [])
    (hr : Explains crates x (request, r)) (hmismatch : ∀ want got, r ≠ .error (.idMismatch want got))
    (hcurrent : r = .error .timedOut ∨ x.client.current = []) :
    Sound crates (x.settle request r .idle) := by
  obtain ⟨settled, hsent, hsettled⟩ := h.current
  refine ⟨?_, h.replies, h.order, ⟨x.sent, by simp [settle, ClientPc.current], fun _ hgave => ?_⟩,
    explains_settle h.results hr,
    mismatch_settle h.mismatch fun want got heq => absurd heq (hmismatch want got)⟩
  · have hstream := h.requests
    rw [hleft] at hstream
    simpa [settle, hopen, ClientPc.left, taken] using hstream
  · obtain ⟨hgave, htimely⟩ := not_gaveUp_of_settle hgave
    obtain hr | hcurrent := hcurrent
    · exact absurd hr htimely
    · rw [hcurrent, List.append_nil] at hsent
      exact hsent ▸ hsettled hopen hgave

/-- A client that is sending moves on with the same bytes before it. -/
theorem sound_sending {client : ClientPc} {toServer : List UInt8} (h : Sound crates x)
    (hopen : x.client ≠ .gone) (hopen' : client ≠ .gone)
    (hcurrent : client.current = x.client.current)
    (hbytes : toServer ++ client.left = x.toServer ++ x.client.left) :
    Sound crates { x with client := client, toServer := toServer } := by
  obtain ⟨settled, hsent, hsettled⟩ := h.current
  refine ⟨?_, h.replies, h.order, ⟨settled, hcurrent ▸ hsent, fun _ => hsettled hopen⟩, h.results,
    h.mismatch⟩
  simpa [hbytes, hopen, hopen', taken] using h.requests

theorem sound_send {request : Request} {bytes : List UInt8} (h : Sound crates x)
    (hidle : x.client = .idle)
    (hencode : crates.codec.encode (crates.body request.toJson) = some bytes) :
    Sound crates { x with client := .writing request bytes, sent := x.sent ++ [request] } := by
  obtain ⟨settled, hsent, hsettled⟩ := h.current
  rw [hidle] at hsent hsettled
  obtain rfl : x.sent = settled := by simpa [ClientPc.current] using hsent
  have hopen : x.client ≠ .gone := by simp [hidle]
  refine ⟨?_, h.replies, h.order.trans (List.prefix_append _ _), ⟨x.sent, rfl, ?_⟩,
    fun entry hentry => ?_, h.mismatch⟩
  · have hstream := h.requests.send hopen hencode
    simpa [hidle, ClientPc.left, taken] using hstream
  · exact fun _ => hsettled (by simp)
  · exact (h.results entry hentry).mono (List.subset_append_left _ _) (List.Subset.refl _)

/-- The client takes a reply. It is to another request only after one was given up on. -/
theorem sound_clientTake {request : Request} {body : ByteArray} {rest : List UInt8}
    (hcrates : crates.Lawful) (h : Sound crates x) (hwaiting : x.client = .waiting request)
    (hdecode : crates.codec.decode x.buffer = .frame body rest) :
    Sound crates ({ x with buffer := rest, replies := x.replies + 1 }.settle request
      (reply crates request body) .idle) := by
  obtain ⟨settled, hsent, hsettled⟩ := h.current
  rw [hwaiting] at hsent hsettled
  obtain ⟨-, hrest⟩ := h.replies.take hcrates.codec hdecode
  obtain ⟨entry, r, hentry, rfl, hr, hid⟩ := next_answer hcrates h hdecode
  have hmem : entry ∈ x.log := List.mem_of_getElem? hentry
  have hresults : ∀ entry ∈ x.results,
      Explains crates { x with buffer := rest, replies := x.replies + 1 } entry :=
    fun entry hold => (h.results entry hold).mono (List.Subset.refl _) (List.Subset.refl _)
  refine ⟨?_, hrest, h.order, ⟨x.sent, by simp [settle, ClientPc.current], ?_⟩,
    explains_settle hresults ?_, mismatch_settle h.mismatch ?_⟩
  · simpa [settle, hwaiting, ClientPc.left, taken] using h.requests
  · intro _ hgave
    have hlength := hsettled (by simp) (not_gaveUp_of_settle hgave).1
    simp [settle, hsent, ClientPc.current, hlength]
  · rw [reply, hr]
    split
    · next hparse => cases hparse
    · next r' hparse =>
      cases hparse
      split
      · trivial
      · next hsame =>
        refine ⟨?_, not_not.mp hsame, entry, hmem, hr⟩
        simp [hsent, ClientPc.current]
  · intro want got hmismatch
    by_contra hgave
    have hfirst := next_is_current h hsent (hsettled (by simp) hgave) hentry
    rw [reply, hr] at hmismatch
    simp [hid, hfirst] at hmismatch

theorem sound_stepClient {e : ClientEvent} (hcrates : crates.Lawful) (h : Sound crates x)
    (hstep : x.stepClient crates e = some y) : Sound crates y := by
  cases e with
  | send request e =>
    simp only [stepClient] at hstep
    split at hstep
    · next hidle =>
      split at hstep
      · next bytes hencode =>
        cases hstep
        exact sound_send h hidle hencode
      · cases hstep
        exact sound_settle_idle h (by simp [hidle]) (by rw [hidle]; rfl) trivial (by simp)
          (.inr (by rw [hidle]; rfl))
    · cases hstep
  | write n =>
    simp only [stepClient] at hstep
    split at hstep
    · next request left hwriting =>
      cases hstep
      exact sound_sending h (by simp [hwriting]) (by simp) (by rw [hwriting]; rfl)
        (by simp [hwriting, ClientPc.left])
    · cases hstep
  | flushed =>
    simp only [stepClient] at hstep
    split at hstep
    · next request hwriting =>
      cases hstep
      exact sound_sending h (by simp [hwriting]) (by simp) (by rw [hwriting]; rfl)
        (by simp [hwriting, ClientPc.left])
    · cases hstep
  | writeFails e =>
    simp only [stepClient] at hstep
    split at hstep
    · cases hstep
      exact sound_settle_gone h trivial (by simp)
    · cases hstep
  | read n =>
    simp only [stepClient] at hstep
    split at hstep
    · cases hstep
      refine ⟨h.requests, ?_, h.order, h.current, h.results, h.mismatch⟩
      simpa [answers, take_append_drop_append] using h.replies
    · cases hstep
  | take =>
    simp only [stepClient] at hstep
    split at hstep
    · next request body rest hwaiting hdecode =>
      cases hstep
      exact sound_clientTake hcrates h hwaiting hdecode
    · next request e hwaiting hdecode =>
      exact absurd hdecode (h.replies.not_invalid hcrates.codec e)
    · cases hstep
  | timeout =>
    simp only [stepClient] at hstep
    split at hstep
    · next request hwaiting =>
      cases hstep
      exact sound_settle_idle h (by simp [hwaiting]) (by rw [hwaiting]; rfl) trivial (by simp)
        (.inl rfl)
    · cases hstep
  | eof remaining =>
    simp only [stepClient] at hstep
    split at hstep
    · split at hstep
      · obtain ⟨-, rfl⟩ := Transition.guard_eq_some.mp hstep
        exact sound_settle_gone h rfl (by simp)
      · cases hstep
        exact sound_settle_gone h trivial (by simp)
    · cases hstep
  | close =>
    simp only [stepClient] at hstep
    split at hstep
    · next hidle =>
      cases hstep
      refine ⟨?_, h.replies, h.order, ⟨x.sent, by simp [ClientPc.current],
        fun hne => absurd rfl hne⟩, h.results, h.mismatch⟩
      have hstream := h.requests
      rw [hidle] at hstream
      exact hstream.imp fun hne => absurd rfl hne
    · cases hstep

/-! ## Steps of the server -/

theorem sound_answer {inbox : List UInt8} (entry : Request × Outcome) (h : Sound crates x)
    (hopen : x.server ≠ .closed) (hleft : x.server.left = [])
    (hrequests : InFlight crates.codec (x.sent.map fun r => crates.body r.toJson)
      (x.log.length + 1) (inbox ++ (x.toServer ++ x.client.left)) (x.client ≠ .gone))
    (horder : x.log.map Prod.fst ++ [entry.1] <+: x.sent) :
    Sound crates ({ x with inbox := inbox, log := x.log ++ [entry] }.answer crates
      (entry.2.response entry.1) false) := by
  have hreplies := h.replies
  rw [hleft, List.append_nil] at hreplies
  have hresults : ∀ e ∈ x.results, Explains crates { x with log := x.log ++ [entry] } e :=
    fun e he => (h.results e he).mono (List.Subset.refl _) (List.subset_append_left _ _)
  unfold answer
  split
  · next bytes hencode =>
    refine ⟨?_, ?_, ?_, h.current, fun e he => ?_, h.mismatch⟩
    · simpa [taken, ServerPc.handed] using hrequests
    · have hstream := hreplies.send hopen hencode
      simpa [answers, ServerPc.left, hopen] using hstream
    · simpa [taken, ServerPc.handed] using horder
    · exact (hresults e he).mono (List.Subset.refl _) (List.Subset.refl _)
  · refine ⟨?_, ?_, ?_, h.current, fun e he => ?_, h.mismatch⟩
    · simpa [taken, ServerPc.handed] using hrequests
    · have hstream : InFlight crates.codec _ _ _ (ServerPc.closed ≠ .closed) :=
        hreplies.refused (crates.body (entry.2.response entry.1).toJson) (not_not.mpr rfl)
      simpa [answers, ServerPc.left] using hstream
    · simpa [taken, ServerPc.handed] using horder
    · exact (hresults e he).mono (List.Subset.refl _) (List.Subset.refl _)

theorem sound_stepServer {e : ServerEvent} (h : Sound crates x)
    (hstep : x.stepServer crates e = some y) : Sound crates y := by
  cases e with
  | read n =>
    simp only [stepServer] at hstep
    split at hstep
    · cases hstep
      refine ⟨?_, h.replies, h.order, h.current, h.results, h.mismatch⟩
      simpa [taken, take_append_drop_append] using h.requests
    · cases hstep
  | result r =>
    simp only [stepServer] at hstep
    split at hstep
    · next request hhandling =>
      cases hstep
      have hrequests := h.requests
      have horder := h.order
      rw [taken, hhandling] at hrequests horder
      refine sound_answer (request, .returned r) h (by simp [hhandling])
        (by rw [hhandling]; rfl) ?_ horder
      simpa [ServerPc.handed] using hrequests
    · cases hstep
  | write n =>
    simp only [stepServer] at hstep
    split at hstep
    · next left last hanswering =>
      cases hstep
      have hreplies := h.replies
      have hrequests := h.requests
      have horder := h.order
      rw [taken, hanswering] at hrequests horder
      rw [hanswering] at hreplies
      refine ⟨hrequests, ?_, horder, h.current, h.results, h.mismatch⟩
      simpa [answers, ServerPc.left] using hreplies
    · cases hstep
  | flushed =>
    simp only [stepServer] at hstep
    split at hstep
    · next last hanswering =>
      cases hstep
      have hreplies := h.replies
      have hrequests := h.requests
      have horder := h.order
      rw [taken, hanswering] at hrequests horder
      rw [hanswering] at hreplies
      have hopen : ServerPc.answering [] last ≠ .closed := by simp
      cases last with
      | false =>
        exact ⟨hrequests, hreplies.imp fun _ => hopen, horder, h.current, h.results, h.mismatch⟩
      | true =>
        exact ⟨hrequests, hreplies.imp fun _ => hopen, horder, h.current, h.results, h.mismatch⟩
    · cases hstep
  | leave =>
    have hclosed : ∀ pc, x.server = pc → pc.handed = [] → y = { x with server := .closed } →
        Sound crates y := by
      rintro pc hpc hhanded rfl
      have hrequests := h.requests
      have horder := h.order
      have hreplies := h.replies
      rw [taken, hpc, hhanded] at hrequests horder
      rw [← List.append_assoc] at hreplies
      refine ⟨hrequests, ?_, horder, h.current, h.results, h.mismatch⟩
      have hquit : InFlight crates.codec _ _ _ (ServerPc.closed ≠ .closed) :=
        hreplies.quit (not_not.mpr rfl)
      simpa [answers, ServerPc.left] using hquit
    simp only [stepServer] at hstep
    split at hstep
    · next hreading => exact hclosed _ hreading rfl (by simpa using hstep.symm)
    · next left last hanswering => exact hclosed _ hanswering rfl (by simpa using hstep.symm)
    · cases hstep

theorem sound_serverTake {allowed : Bool} (hcrates : crates.Lawful) (h : Sound crates x)
    (hstep : x.serverTake crates allowed = some y) : Sound crates y := by
  -- The frame is that of the next request sent.
  have hnext : ∀ body rest, x.server = .reading → crates.codec.decode x.inbox = .frame body rest →
      ∃ request, crates.fromSlice body = .ok request ∧
        InFlight crates.codec (x.sent.map fun r => crates.body r.toJson) (x.log.length + 1)
          (rest ++ (x.toServer ++ x.client.left)) (x.client ≠ .gone) ∧
        x.log.map Prod.fst ++ [request] <+: x.sent := by
    intro body rest hreading hdecode
    have htaken : x.taken = x.log.map Prod.fst := by simp [taken, hreading, ServerPc.handed]
    obtain ⟨hbody, hrest⟩ := h.requests.take hcrates.codec hdecode
    rw [List.getElem?_map] at hbody
    obtain ⟨request, hrequest, rfl⟩ := Option.map_eq_some_iff.mp hbody
    refine ⟨request, hcrates.request request, by simpa [htaken] using hrest, ?_⟩
    obtain ⟨unread, hunread⟩ := h.order
    rw [← hunread, List.getElem?_append_right (Nat.le_refl _), Nat.sub_self] at hrequest
    obtain ⟨later, rfl⟩ : ∃ later, unread = request :: later := by
      cases unread with
      | nil => cases hrequest
      | cons first later => exact ⟨later, by rw [Option.some.inj hrequest]⟩
    rw [← hunread, htaken]
    exact ⟨later, by simp⟩
  have hhand : ∀ request rest,
      InFlight crates.codec (x.sent.map fun r => crates.body r.toJson) (x.log.length + 1)
        (rest ++ (x.toServer ++ x.client.left)) (x.client ≠ .gone) →
      x.log.map Prod.fst ++ [request] <+: x.sent → x.server = .reading →
      Sound crates { x with inbox := rest, server := .handling request } := by
    intro request rest hrest horder hreading
    have hreplies := h.replies
    rw [hreading] at hreplies
    refine ⟨?_, hreplies.imp fun _ => by simp, horder, h.current, h.results, h.mismatch⟩
    simpa [taken, ServerPc.handed] using hrest
  simp only [serverTake] at hstep
  split at hstep
  · next e hreading hdecode => exact absurd hdecode (h.requests.not_invalid hcrates.codec e)
  · next body rest hreading hdecode =>
    obtain ⟨request, hrequest, hrest, horder⟩ := hnext body rest hreading hdecode
    rw [hrequest] at hstep
    split at hstep
    · next heq => cases heq
    · next id heq =>
      cases heq
      split at hstep
      · cases hstep
        exact hhand _ _ hrest horder hreading
      · cases hstep
        exact sound_answer (.reload id, .refused) h (by simp [hreading])
          (by rw [hreading]; rfl) hrest horder
    · next heq =>
      cases heq
      cases hstep
      exact hhand _ _ hrest horder hreading
  · cases hstep

end

end Exchange

/-! ## Runs of the server -/

section

variable {crates : WireCrates} {s t : Server} {as : List ServeEvent} {i : Nat} {x : Exchange}

/-- A step of the server is one of one connection, or begins one. -/
theorem Server.step_cases {e : ServeEvent} (h : s.step crates e = some t) :
    ∃ i y, t.exchanges = s.put i y ∧
      ((s.exchanges i = none ∧ (∃ peerUid ourUid, y = .accept peerUid ourUid) ∧
          t.accepted = s.accepted ∧ t.lastReload = s.lastReload) ∨
        ∃ x, s.exchanges i = some x ∧
          ((((∃ e, x.stepClient crates e = some y) ∨ ∃ e, x.stepServer crates e = some y) ∧
              t.accepted = s.accepted ∧ t.lastReload = s.lastReload) ∨
            ∃ now, x.serverTake crates (tryAcquire s.lastReload now) = some y ∧
              (t.accepted, t.lastReload) = if y.server.reloads = true then
                (s.accepted ++ [(i, now)], some now) else (s.accepted, s.lastReload))) := by
  cases e with
  | connect i peerUid ourUid =>
    simp only [Server.step] at h
    split at h
    · next hnone =>
      cases h
      exact ⟨i, _, rfl, .inl ⟨hnone, ⟨peerUid, ourUid, rfl⟩, rfl, rfl⟩⟩
    · cases h
  | client i e =>
    obtain ⟨x, hx, hstep⟩ := Option.bind_eq_some_iff.mp h
    obtain ⟨y, hy, rfl⟩ := Option.map_eq_some_iff.mp hstep
    exact ⟨i, y, rfl, .inr ⟨x, hx, .inl ⟨.inl ⟨e, hy⟩, rfl, rfl⟩⟩⟩
  | server i e =>
    obtain ⟨x, hx, hstep⟩ := Option.bind_eq_some_iff.mp h
    obtain ⟨y, hy, rfl⟩ := Option.map_eq_some_iff.mp hstep
    exact ⟨i, y, rfl, .inr ⟨x, hx, .inl ⟨.inr ⟨e, hy⟩, rfl, rfl⟩⟩⟩
  | take i now =>
    obtain ⟨x, hx, hstep⟩ := Option.bind_eq_some_iff.mp h
    obtain ⟨y, hy, ht⟩ := Option.map_eq_some_iff.mp hstep
    split at ht
    · next hreloads =>
      cases ht
      exact ⟨i, y, rfl, .inr ⟨x, hx, .inr ⟨now, hy, by rw [if_pos hreloads]⟩⟩⟩
    · next hreloads =>
      cases ht
      exact ⟨i, y, rfl, .inr ⟨x, hx, .inr ⟨now, hy, by rw [if_neg hreloads]⟩⟩⟩

theorem sound_run (hcrates : crates.Lawful)
    (hrun : Transition.run (Server.step crates) .start as = some t)
    (hx : t.exchanges i = some x) : x.Sound crates := by
  have hall : ∀ i x, t.exchanges i = some x → x.Sound crates := by
    refine Transition.invariant_run
      (I := fun s : Server => ∀ i x, s.exchanges i = some x → x.Sound crates)
      (fun s e t h hstep => ?_) (by simp [Server.start]) hrun
    obtain ⟨i, y, hput, hy⟩ := Server.step_cases hstep
    have hsound : y.Sound crates := by
      rcases hy with ⟨-, ⟨peerUid, ourUid, rfl⟩, -⟩ | ⟨x, hx, ⟨⟨e, hy⟩ | ⟨e, hy⟩, -⟩ | ⟨now, hy, -⟩⟩
      · exact Exchange.sound_accept peerUid ourUid
      · exact Exchange.sound_stepClient hcrates (h i x hx) hy
      · exact Exchange.sound_stepServer (h i x hx) hy
      · exact Exchange.sound_serverTake hcrates (h i x hx) hy
    intro j x hj
    rw [hput, Server.put, Function.update_apply] at hj
    split at hj
    · cases hj
      exact hsound
    · exact h j x hj
  exact hall i x hx

end

end Gcit.Control
