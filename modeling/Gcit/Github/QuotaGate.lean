import Gcit.Git.RateBucket
import Gcit.Github.Correlator
import Gcit.Github.RateLimit
import Gcit.Library.Transition

/-! # The quota gate in front of a credential's requests

The poller and all callers of one credential share a snapshot. `dispatch` and a poll
of `monitor_run` consult it once and then send, the one after the pacing bucket, the
other a chain of requests; `correlate` sends without consulting it. Every send is kept
with what its sender knew, so that what the gate lets through can be said of a run.
-/

namespace Gcit.Github

open Gcit Gcit.Git Gcit.Library

def MAX_JOBS_PAGES : Nat := 10

inductive Request where
  | dispatch
  | runsPage (fallback : Bool) (page : Nat)
  | run
  | jobsPage (page : Nat)
  deriving DecidableEq

inductive Caller where
  | dispatch
  | correlate (runNameConfigured : Option Bool)
  | monitor
  deriving DecidableEq

inductive CallPc where
  | gate
  | deferred (wake : DateTime)
  | pacing
  | reserved (slot : DateTime)
  | sending (request : Request)
  | waiting (request : Request)
  | resting
  | done
  deriving DecidableEq

/-- What the gate told a caller that has not sent since: how many observations had
landed, and how long it has to sleep. -/
structure Gate where
  landed : Nat
  wake : Option DateTime
  deriving DecidableEq

structure Call where
  caller : Caller
  pc : CallPc
  gate : Option Gate
  deriving DecidableEq

/-- A request as it goes out, with the snapshot of that instant. -/
structure Sent where
  request : Request
  sentAt : DateTime
  snapshot : RateLimitSnapshot
  gate : Option Gate
  landed : Nat
  deriving DecidableEq

inductive Answer where
  | response (headers : RateLimitHeaders) (success : Bool)
  | failed
  deriving DecidableEq

structure Quota where
  now : DateTime
  snapshot : RateLimitSnapshot
  /-- How many observations the snapshot has taken. -/
  landed : Nat
  bucket : Option DateTime
  calls : List Call
  sent : List Sent
  deriving DecidableEq

inductive QuotaEvent where
  | tick (elapsed : Duration)
  | polled (limit remaining : UInt64) (reset : DateTime)
  | pollFailed
  | start (caller : Caller)
  | consult (call : Nat)
  | wake (call : Nat)
  | reserve (call : Nat)
  | paced (call : Nat)
  | send (call : Nat)
  /-- Another page is linked and wanted, and the call returns with what it has. -/
  | answered (call : Nat) (answer : Answer) (linked finished : Bool)
  | resume (call : Nat)
  | stop (call : Nat)
  deriving DecidableEq

def Caller.first : Caller → CallPc
  | .dispatch | .monitor => .gate
  | .correlate _ => .sending (.runsPage false 1)

def Caller.afterGate : Caller → CallPc
  | .dispatch => .pacing
  | .monitor => .sending .run
  | .correlate _ => .sending (.runsPage false 1)

/-- `matches!(run_name_configured, Some(false) | None)`. -/
def Caller.fallsBack : Caller → Bool
  | .correlate (some true) => false
  | _ => true

/-- The headers that reach `observe_headers`: `classified_get` drops those of an error. -/
def Request.observed : Request → Answer → Option RateLimitHeaders
  | .dispatch, .response headers _ => some headers
  | _, .response headers true => some headers
  | _, _ => none

def Answer.success : Answer → Bool
  | .response _ success => success
  | .failed => false

/-- Where a call goes on after the answer to `request`. -/
def Caller.follow (caller : Caller) (success linked finished : Bool) : Request → CallPc
  | .dispatch => .done
  | .runsPage fallback page =>
    if success ∧ linked ∧ page < MAX_PAGES_PER_POLL then .sending (.runsPage fallback (page + 1))
    else if finished then .done
    else if ¬ fallback ∧ caller.fallsBack then .sending (.runsPage true 1)
    else .resting
  | .run => if success then .sending (.jobsPage 1) else if finished then .done else .resting
  | .jobsPage page =>
    if success ∧ linked ∧ page < MAX_JOBS_PAGES then .sending (.jobsPage (page + 1))
    else if finished then .done else .resting

/-- The slot that `RateBucket::acquire` reserves. -/
def reserveSlot (minInterval : Duration) (last : Option DateTime) (now : DateTime) : DateTime :=
  match last with
  | none => now
  | some prev => max (prev + minInterval) now

theorem reserve_eq_reserveSlot (b : RateBucket) (now : Instant) :
    ((b.reserve now).1 : DateTime) =
      reserveSlot b.minInterval (b.last.map Nat.cast) (now : Int) := by
  obtain ⟨minInterval, last⟩ := b
  cases last with
  | none => rfl
  | some prev =>
    simp only [RateBucket.reserve, reserveSlot, Option.map_some]
    split
    case isTrue hahead => exact (Int.max_eq_left (Int.ofNat_le.mpr (Nat.le_of_lt hahead))).symm
    case isFalse hpast => exact (Int.max_eq_right (Int.ofNat_le.mpr (Nat.le_of_not_lt hpast))).symm

theorem last_settle (b : RateBucket) (now : Instant) :
    (b.settle now).last.map (Nat.cast : Nat → DateTime) =
      (b.last.map Nat.cast).map (max (now : Int)) := by
  obtain ⟨minInterval, last⟩ := b
  cases last with
  | none => rfl
  | some prev =>
    simp only [RateBucket.settle, Option.map_some]
    split
    case isTrue hlate =>
      exact congrArg some (Int.max_eq_left (Int.ofNat_le.mpr (Nat.le_of_lt hlate))).symm
    case isFalse hearly =>
      exact congrArg some (Int.max_eq_right (Int.ofNat_le.mpr (Nat.le_of_not_lt hearly))).symm

namespace Quota

def start (now : DateTime) : Quota := ⟨now, .new, 0, none, [], []⟩

def put (s : Quota) (i : Nat) (call : Call) : Quota := { s with calls := s.calls.set i call }

def land (s : Quota) (snapshot : RateLimitSnapshot) : Quota :=
  { s with
    snapshot
    landed := s.landed + 1 }

def observe (s : Quota) : Option RateLimitHeaders → Quota
  | some headers =>
    if RateLimitSnapshot.observes headers then s.land (s.snapshot.observeHeaders headers s.now)
    else s
  | none => s

/-- `should_defer` and the sleep that it asks for. -/
def consult (s : Quota) (caller : Caller) : Call :=
  match s.snapshot.shouldDefer s.now with
  | none => ⟨caller, caller.afterGate, some ⟨s.landed, none⟩⟩
  | some wait => ⟨caller, .deferred (s.now + wait), some ⟨s.landed, some (s.now + wait)⟩⟩

def step (minInterval : Duration) (s : Quota) : QuotaEvent → Option Quota
  | .tick elapsed => some { s with now := s.now + elapsed }
  | .polled limit remaining reset =>
    some (s.land (s.snapshot.observeFull limit remaining reset s.now))
  | .pollFailed =>
    some (if s.snapshot.observedAt.isSome then s else s.land (s.snapshot.clampPessimistic s.now))
  | .start caller => some { s with calls := s.calls ++ [⟨caller, caller.first, none⟩] }
  | .consult i => match s.calls[i]? with
    | some ⟨caller, .gate, _⟩ => some (s.put i (s.consult caller))
    | _ => none
  | .wake i => match s.calls[i]? with
    | some ⟨caller, .deferred wake, gate⟩ =>
      if wake ≤ s.now then some (s.put i ⟨caller, caller.afterGate, gate⟩) else none
    | _ => none
  | .reserve i => match s.calls[i]? with
    | some ⟨caller, .pacing, gate⟩ =>
      let slot := reserveSlot minInterval s.bucket s.now
      some { s.put i ⟨caller, .reserved slot, gate⟩ with bucket := some slot }
    | _ => none
  | .paced i => match s.calls[i]? with
    | some ⟨caller, .reserved slot, gate⟩ =>
      if slot ≤ s.now then
        some { s.put i ⟨caller, .sending .dispatch, gate⟩ with
          bucket := s.bucket.map (max s.now) }
      else none
    | _ => none
  | .send i => match s.calls[i]? with
    | some ⟨caller, .sending request, gate⟩ =>
      some { s.put i ⟨caller, .waiting request, none⟩ with
        sent := s.sent ++ [⟨request, s.now, s.snapshot, gate, s.landed⟩] }
    | _ => none
  | .answered i answer linked finished => match s.calls[i]? with
    | some ⟨caller, .waiting request, _⟩ =>
      some ((s.observe (request.observed answer)).put i
        ⟨caller, caller.follow answer.success linked finished request, none⟩)
    | _ => none
  | .resume i => match s.calls[i]? with
    | some ⟨caller, .resting, _⟩ => some (s.put i ⟨caller, caller.first, none⟩)
    | _ => none
  -- a cancelled wait, a deadline, an error before the request, a dropped future
  | .stop i => match s.calls[i]? with
    | some ⟨caller, _, _⟩ => some (s.put i ⟨caller, .done, none⟩)
    | none => none

end Quota

/-- The snapshot permits the request, or its sender has slept out its deferral and
nothing has landed since it was given. -/
def Sent.Allowed (r : Sent) : Prop :=
  r.snapshot.shouldDefer r.sentAt = none ∨
    ∃ gate ∈ r.gate, gate.landed = r.landed ∧ ∃ wake ∈ gate.wake, wake ≤ r.sentAt

instance decidableAllowed (r : Sent) : Decidable r.Allowed :=
  inferInstanceAs (Decidable (_ ∨
    ∃ gate ∈ r.gate, gate.landed = r.landed ∧ ∃ wake ∈ gate.wake, wake ≤ r.sentAt))

def Quota.SendsAllowed (s : Quota) : Prop := ∀ r ∈ s.sent, r.Allowed

instance Quota.decidableSendsAllowed (s : Quota) : Decidable s.SendsAllowed :=
  inferInstanceAs (Decidable (∀ r ∈ s.sent, r.Allowed))

/-- A sender that the gate let pass, before anything newer landed, still has a recent
snapshot; one that consulted no gate, or an overtaken one, finds headroom. -/
def WithinQuota (s : Quota) (gate : Option Gate) : Prop :=
  if gate.map Gate.landed = some s.landed then
    (gate.bind Gate.wake).isSome ∨ s.snapshot.Recent s.now
  else s.snapshot.Headroom s.now

def SendsWithinQuota (s : Quota) : QuotaEvent → Prop
  | .send i => ∀ call ∈ s.calls[i]?, WithinQuota s call.gate
  | _ => True

instance decidableWithinQuota (s : Quota) (gate : Option Gate) :
    Decidable (WithinQuota s gate) :=
  inferInstanceAs (Decidable (if gate.map Gate.landed = some s.landed then _ else _))

instance decidableSendsWithinQuota (s : Quota) : (e : QuotaEvent) → Decidable (SendsWithinQuota s e)
  | .send i => inferInstanceAs (Decidable (∀ call ∈ s.calls[i]?, WithinQuota s call.gate))
  | .tick _ | .polled .. | .pollFailed | .start _ | .consult _ | .wake _ | .reserve _ | .paced _
  | .answered .. | .resume _ | .stop _ => inferInstanceAs (Decidable True)

structure Call.Sound (s : Quota) (call : Call) : Prop where
  seen : ∀ gate ∈ call.gate, gate.landed ≤ s.landed
  passed : ∀ gate ∈ call.gate, gate.landed = s.landed → gate.wake = none →
    ∃ t, t ≤ s.now ∧ s.snapshot.Headroom t
  slept : ∀ gate ∈ call.gate, ∀ wake ∈ gate.wake, call.pc = .deferred wake ∨ wake ≤ s.now

/-- Time goes on, and what the snapshot says changes only by an observation. -/
structure Quota.Later (s t : Quota) : Prop where
  now : s.now ≤ t.now
  landed : s.landed ≤ t.landed
  snapshot : t.landed = s.landed → t.snapshot = s.snapshot

namespace Call.Sound

variable {s t : Quota} {call : Call}

theorem later (h : call.Sound s) (hlater : s.Later t) : call.Sound t where
  seen gate hgate := (h.seen gate hgate).trans hlater.landed
  passed gate hgate heq hwake := by
    have hsame : t.landed = s.landed := by
      have hle := h.seen gate hgate
      have hmono := hlater.landed
      omega
    obtain ⟨u, hu, hroom⟩ := h.passed gate hgate (heq.trans hsame) hwake
    rw [hlater.snapshot hsame]
    exact ⟨u, Int.le_trans hu hlater.now, hroom⟩
  slept gate hgate wake hwake :=
    (h.slept gate hgate wake hwake).imp_right fun hle => Int.le_trans hle hlater.now

theorem fresh (caller : Caller) (pc : CallPc) : Call.Sound s ⟨caller, pc, none⟩ where
  seen := nofun
  passed := nofun
  slept := nofun

theorem moved {caller : Caller} {pc pc' : CallPc} {gate : Option Gate}
    (h : Call.Sound s ⟨caller, pc, gate⟩) (hpc : ∀ wake, pc = .deferred wake → wake ≤ s.now) :
    Call.Sound s ⟨caller, pc', gate⟩ where
  seen := h.seen
  passed := h.passed
  slept g hg wake hwake := (h.slept g hg wake hwake).elim (fun heq => .inr (hpc wake heq)) .inr

theorem consult (s : Quota) (caller : Caller) : (s.consult caller).Sound s := by
  unfold Quota.consult
  split
  case h_1 hnone =>
    refine ⟨?_, ?_, ?_⟩
    · rintro gate ⟨⟩
      exact le_rfl
    · rintro gate ⟨⟩ _ _
      exact ⟨s.now, Int.le_refl _, RateLimitSnapshot.shouldDefer_eq_none_iff.mp hnone⟩
    · rintro gate ⟨⟩ wake ⟨⟩
  case h_2 wait hwait =>
    refine ⟨?_, ?_, ?_⟩
    · rintro gate ⟨⟩
      exact le_rfl
    · rintro gate ⟨⟩ _ ⟨⟩
    · rintro gate ⟨⟩ wake ⟨⟩
      exact .inl rfl

end Call.Sound

namespace Quota

variable {minInterval : Duration} {s t : Quota} {e : QuotaEvent}

def GateSound (s : Quota) : Prop := ∀ call ∈ s.calls, call.Sound s

theorem Later.same (hnow : t.now = s.now) (hlanded : t.landed = s.landed)
    (hsnapshot : t.snapshot = s.snapshot) : s.Later t where
  now := Int.le_of_eq hnow.symm
  landed := hlanded.ge
  snapshot _ := hsnapshot

theorem Later.land (s : Quota) (snapshot : RateLimitSnapshot) : s.Later (s.land snapshot) where
  now := Int.le_refl _
  landed := Nat.le_succ _
  snapshot h := absurd h (Nat.succ_ne_self _)

theorem observe_cases (s : Quota) (headers : Option RateLimitHeaders) :
    s.observe headers = s ∨ ∃ snapshot, s.observe headers = s.land snapshot := by
  cases headers with
  | none => exact .inl rfl
  | some headers =>
    by_cases hobserves : RateLimitSnapshot.observes headers
    · exact .inr ⟨_, if_pos hobserves⟩
    · exact .inl (if_neg hobserves)

theorem Later.observe (s : Quota) (headers : Option RateLimitHeaders) :
    s.Later (s.observe headers) := by
  obtain hsame | ⟨snapshot, hland⟩ := observe_cases s headers
  · rw [hsame]
    exact Later.same rfl rfl rfl
  · rw [hland]
    exact Later.land s snapshot

theorem calls_observe (s : Quota) (headers : Option RateLimitHeaders) :
    (s.observe headers).calls = s.calls := by
  obtain hsame | ⟨snapshot, hland⟩ := observe_cases s headers
  · rw [hsame]
  · rw [hland]
    rfl

theorem GateSound.later (h : s.GateSound) (hlater : s.Later t) (hcalls : t.calls = s.calls) :
    t.GateSound := by
  intro call hmem
  rw [hcalls] at hmem
  exact (h call hmem).later hlater

theorem GateSound.put (h : s.GateSound) {i : Nat} {call : Call} (hcall : call.Sound s) :
    (s.put i call).GateSound := by
  intro other hmem
  have hlater : s.Later (s.put i call) := Later.same rfl rfl rfl
  rcases List.mem_or_eq_of_mem_set hmem with hmem | rfl
  · exact (h other hmem).later hlater
  · exact hcall.later hlater

theorem step_send {i : Nat} (hstep : s.step minInterval (.send i) = some t) :
    ∃ caller request gate, s.calls[i]? = some ⟨caller, .sending request, gate⟩ ∧
      t = { s.put i ⟨caller, .waiting request, none⟩ with
        sent := s.sent ++ [⟨request, s.now, s.snapshot, gate, s.landed⟩] } := by
  simp only [Quota.step] at hstep
  split at hstep
  case h_1 caller request gate hcall =>
    exact ⟨caller, request, gate, hcall, (Option.some.inj hstep).symm⟩
  case h_2 => cases hstep

theorem GateSound.step (h : s.GateSound) (hstep : s.step minInterval e = some t) :
    t.GateSound := by
  cases e with
  | tick elapsed =>
    obtain rfl := Option.some.inj hstep
    exact h.later ⟨Int.le_add_of_nonneg_right (Int.natCast_nonneg _), le_rfl, fun _ => rfl⟩ rfl
  | polled limit remaining reset =>
    obtain rfl := Option.some.inj hstep
    exact h.later (Later.land s _) rfl
  | pollFailed =>
    obtain rfl := Option.some.inj hstep
    split
    · exact h
    · exact h.later (Later.land s _) rfl
  | start caller =>
    obtain rfl := Option.some.inj hstep
    intro call hmem
    have hlater : s.Later { s with calls := s.calls ++ [⟨caller, caller.first, none⟩] } :=
      Later.same rfl rfl rfl
    rcases List.mem_append.mp hmem with hmem | hmem
    · exact (h call hmem).later hlater
    · obtain rfl := List.mem_singleton.mp hmem
      exact .fresh _ _
  | consult i =>
    simp only [Quota.step] at hstep
    split at hstep
    · obtain rfl := Option.some.inj hstep
      exact h.put (.consult s _)
    · cases hstep
  | wake i =>
    simp only [Quota.step] at hstep
    split at hstep
    case h_1 caller wake gate hcall =>
      obtain ⟨hwake, rfl⟩ := Transition.guard_eq_some.mp hstep
      refine h.put ((h _ (List.mem_of_getElem? hcall)).moved ?_)
      rintro _ ⟨⟩
      exact hwake
    case h_2 => cases hstep
  | reserve i =>
    simp only [Quota.step] at hstep
    split at hstep
    case h_1 caller gate hcall =>
      obtain rfl := Option.some.inj hstep
      exact (h.put ((h _ (List.mem_of_getElem? hcall)).moved nofun)).later (Later.same rfl rfl rfl) rfl
    case h_2 => cases hstep
  | paced i =>
    simp only [Quota.step] at hstep
    split at hstep
    case h_1 caller slot gate hcall =>
      obtain ⟨-, rfl⟩ := Transition.guard_eq_some.mp hstep
      exact (h.put ((h _ (List.mem_of_getElem? hcall)).moved nofun)).later (Later.same rfl rfl rfl) rfl
    case h_2 => cases hstep
  | send i =>
    obtain ⟨caller, request, gate, -, rfl⟩ := step_send hstep
    exact (h.put (.fresh _ _)).later (Later.same rfl rfl rfl) rfl
  | answered i answer linked finished =>
    simp only [Quota.step] at hstep
    split at hstep
    case h_1 caller request _ _ =>
      obtain rfl := Option.some.inj hstep
      refine GateSound.put (h.later (Later.observe s _) ?_) (.fresh _ _)
      exact calls_observe s _
    case h_2 => cases hstep
  | resume i =>
    simp only [Quota.step] at hstep
    split at hstep
    · obtain rfl := Option.some.inj hstep
      exact h.put (.fresh _ _)
    · cases hstep
  | stop i =>
    simp only [Quota.step] at hstep
    split at hstep
    · obtain rfl := Option.some.inj hstep
      exact h.put (.fresh _ _)
    · cases hstep

end Quota

end Gcit.Github
