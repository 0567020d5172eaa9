import Mathlib.Data.List.Induction
import Gcit.Library.Trace
import Gcit.Github.RateLimit

/-! # The gate before the first observation

Calls on a fresh snapshot, in the order in which they take its lock, each with its
own reading of the clock. Until GitHub tells what remains of the quota, a clamp is
the only thing that puts a number there, and its reset passes.
-/

namespace Gcit.Github.RateLimitSnapshot

open Std Gcit Gcit.Git Gcit.Library

inductive Call where
  | clampPessimistic
  | observeHeaders (headers : RateLimitHeaders)
  | observeFull (limit remaining : UInt64) (reset : DateTime)
  | shouldDefer
  deriving DecidableEq

abbrev TimedCall := Call × DateTime

def after (s : RateLimitSnapshot) (call : TimedCall) : RateLimitSnapshot :=
  match call.1 with
  | .clampPessimistic => s.clampPessimistic call.2
  | .observeHeaders headers => s.observeHeaders headers call.2
  | .observeFull limit remaining reset => s.observeFull limit remaining reset call.2
  | .shouldDefer => s

def afterAll (calls : List TimedCall) : RateLimitSnapshot := calls.foldl after new

def Call.received : Call → Option UInt64
  | .observeHeaders headers => headers.remaining
  | .observeFull _ remaining _ => some remaining
  | .clampPessimistic | .shouldDefer => none

def NoneReceived (calls : List TimedCall) : Prop := ∀ call ∈ calls, call.1.received = none

/-- The calls that make a fresh snapshot an observed one. -/
def observing (call : TimedCall) : Bool :=
  match call.1 with
  | .clampPessimistic | .observeFull .. => true
  | .observeHeaders headers => observes headers
  | .shouldDefer => false

/-- The instant of the clamp, if a clamp came before any observation. -/
def clampedAt (calls : List TimedCall) : Option DateTime :=
  match calls.find? observing with
  | some (.clampPessimistic, now) => some now
  | _ => none

def lastReset (calls : List TimedCall) : Option DateTime :=
  Trace.latest (fun call => match call.1 with
    | .observeHeaders headers => headers.reset.bind timestampOpt
    | _ => none) calls

def lastHeaders (calls : List TimedCall) : Option DateTime :=
  Trace.latest (fun call => match call.1 with
    | .observeHeaders headers => if observes headers then some call.2 else none
    | _ => none) calls

/-- A clamp came first, the reset that it set, or that headers told since, has passed,
and the last of these calls is not older than two poll intervals. -/
def Reopened (calls : List TimedCall) (now : DateTime) : Prop :=
  ∃ clamped ∈ clampedAt calls,
    (lastReset calls).getD (clamped + FIRST_FAILURE_RESET_WINDOW) ≤ now ∧
      now - (lastHeaders calls).getD clamped ≤ (POLL_INTERVAL * 2 : Nat)

/-- As long as no value has been received, every `should_defer` tells to wait. -/
def StaysClosed (calls : List TimedCall) : Prop :=
  ∀ pre now post, calls = pre ++ (.shouldDefer, now) :: post → NoneReceived pre →
    ((afterAll pre).shouldDefer now).isSome = true

theorem afterAll_concat (calls : List TimedCall) (call : TimedCall) :
    afterAll (calls ++ [call]) = (afterAll calls).after call := by simp [afterAll]

theorem clampedAt_of_none {calls : List TimedCall} (h : calls.find? observing = none) :
    clampedAt calls = none := by rw [clampedAt, h]

theorem clampedAt_concat_clamp (calls : List TimedCall) (now : DateTime) :
    clampedAt (calls ++ [(.clampPessimistic, now)]) =
      if (calls.find? observing).isSome then clampedAt calls else some now := by
  rw [clampedAt, List.find?_append]
  cases hfind : calls.find? observing with
  | none => rfl
  | some first => rw [clampedAt, hfind]; rfl

theorem clampedAt_concat {call : TimedCall} (calls : List TimedCall)
    (hcall : call.1 ≠ .clampPessimistic) : clampedAt (calls ++ [call]) = clampedAt calls := by
  rw [clampedAt, List.find?_append]
  cases hfind : calls.find? observing with
  | some first => rw [clampedAt, hfind]; rfl
  | none =>
    rw [clampedAt_of_none hfind]
    obtain ⟨kind, now⟩ := call
    cases kind with
    | clampPessimistic => exact absurd rfl hcall
    | observeHeaders headers => cases hobserves : observes headers <;> simp [observing, hobserves]
    | observeFull limit remaining reset => rfl
    | shouldDefer => rfl

structure Tracks (calls : List TimedCall) (s : RateLimitSnapshot) : Prop where
  remaining : s.remaining = (clampedAt calls).map fun _ => 0
  reset : s.reset =
    (lastReset calls).or ((clampedAt calls).map fun now => now + FIRST_FAILURE_RESET_WINDOW)
  observedAt : s.observedAt = (lastHeaders calls).or (clampedAt calls)
  observed : (calls.find? observing).isSome = s.observedAt.isSome
  fresh : s.observedAt = none → s.reset = none

theorem tracks_new : Tracks [] new := ⟨rfl, rfl, rfl, rfl, fun _ => rfl⟩

namespace Tracks

variable {calls : List TimedCall} {s : RateLimitSnapshot} {now : DateTime}

theorem clampPessimistic (h : Tracks calls s) :
    Tracks (calls ++ [(.clampPessimistic, now)]) (s.clampPessimistic now) := by
  have hreset : lastReset (calls ++ [(.clampPessimistic, now)]) = lastReset calls :=
    Trace.latest_concat _ _ _
  have hheaders : lastHeaders (calls ++ [(.clampPessimistic, now)]) = lastHeaders calls :=
    Trace.latest_concat _ _ _
  have hclamped := clampedAt_concat_clamp calls now
  rw [h.observed] at hclamped
  unfold RateLimitSnapshot.clampPessimistic
  cases hobserved : s.observedAt with
  | some observedAt =>
    rw [hobserved] at hclamped
    have hsame : clampedAt (calls ++ [(.clampPessimistic, now)]) = clampedAt calls := hclamped
    refine ⟨?_, ?_, ?_, ?_, h.fresh⟩
    · rw [hsame]; exact h.remaining
    · rw [hsame, hreset]; exact h.reset
    · rw [hsame, hheaders]; exact h.observedAt
    · rw [List.find?_append, Option.isSome_or, h.observed, hobserved]
      exact (congrArg Option.isSome hobserved).symm
  | none =>
    rw [hobserved] at hclamped
    have hnow : clampedAt (calls ++ [(.clampPessimistic, now)]) = some now := hclamped
    -- nothing was observed before, no reset either
    obtain ⟨hnoHeaders, -⟩ := Option.or_eq_none_iff.mp (h.observedAt.symm.trans hobserved)
    obtain ⟨hnoReset, -⟩ := Option.or_eq_none_iff.mp (h.reset.symm.trans (h.fresh hobserved))
    refine ⟨?_, ?_, ?_, ?_, nofun⟩
    · rw [hnow]; rfl
    · rw [hnow, hreset, hnoReset]; rfl
    · rw [hnow, hheaders, hnoHeaders]; rfl
    · rw [List.find?_append, Option.isSome_or, h.observed, hobserved]; rfl

theorem observeHeaders {headers : RateLimitHeaders} (h : Tracks calls s)
    (hnone : headers.remaining = none) :
    Tracks (calls ++ [(.observeHeaders headers, now)]) (s.observeHeaders headers now) := by
  have hclamped : clampedAt (calls ++ [(.observeHeaders headers, now)]) = clampedAt calls :=
    clampedAt_concat calls nofun
  have hreset : lastReset (calls ++ [(.observeHeaders headers, now)]) =
      (headers.reset.bind timestampOpt).or (lastReset calls) := Trace.latest_concat _ _ _
  have hheaders : lastHeaders (calls ++ [(.observeHeaders headers, now)]) =
      (if observes headers then some now else none).or (lastHeaders calls) :=
    Trace.latest_concat _ _ _
  have hfind : ((calls ++ [(Call.observeHeaders headers, now)]).find? observing).isSome =
      (s.observedAt.isSome || observes headers) := by
    rw [List.find?_append, Option.isSome_or, h.observed]
    cases hobserves : observes headers <;> simp [observing, hobserves]
  unfold RateLimitSnapshot.observeHeaders
  cases hobserves : observes headers with
  | true =>
    rw [hobserves] at hheaders hfind
    refine ⟨?_, ?_, ?_, ?_, fun hnever => absurd hnever (by simp)⟩
    · rw [hclamped, ← h.remaining]; simp [hnone]
    · rw [hclamped, hreset, Option.or_assoc, ← h.reset]; rfl
    · rw [hheaders]; rfl
    · rw [hfind, Bool.or_true]; rfl
  | false =>
    have hnoReset : headers.reset.bind timestampOpt = none := by
      simp only [observes, Bool.or_eq_false_iff, Option.isSome_eq_false_iff,
        Option.isNone_iff_eq_none] at hobserves
      exact hobserves.1.2
    rw [hnoReset] at hreset
    rw [hobserves] at hheaders hfind
    refine ⟨?_, ?_, ?_, ?_, h.fresh⟩
    · rw [hclamped]; exact h.remaining
    · rw [hclamped, hreset]; exact h.reset
    · rw [hclamped, hheaders]; exact h.observedAt
    · rw [hfind, Bool.or_false]; rfl

theorem shouldDefer (h : Tracks calls s) : Tracks (calls ++ [(.shouldDefer, now)]) s := by
  have hclamped : clampedAt (calls ++ [(.shouldDefer, now)]) = clampedAt calls :=
    clampedAt_concat calls nofun
  have hreset : lastReset (calls ++ [(.shouldDefer, now)]) = lastReset calls :=
    Trace.latest_concat _ _ _
  have hheaders : lastHeaders (calls ++ [(.shouldDefer, now)]) = lastHeaders calls :=
    Trace.latest_concat _ _ _
  refine ⟨?_, ?_, ?_, ?_, h.fresh⟩
  · rw [hclamped]; exact h.remaining
  · rw [hclamped, hreset]; exact h.reset
  · rw [hclamped, hheaders]; exact h.observedAt
  · rw [List.find?_append, Option.isSome_or, h.observed]
    exact Bool.or_false _

end Tracks

theorem tracks_afterAll {calls : List TimedCall} (h : NoneReceived calls) :
    Tracks calls (afterAll calls) := by
  induction calls using List.reverseRecOn with
  | nil => exact tracks_new
  | append_singleton calls call ih =>
    have hcalls := ih fun c hc => h c (List.mem_append_left _ hc)
    have hcall := h call (List.mem_append_right _ List.mem_cons_self)
    rw [afterAll_concat]
    obtain ⟨kind, now⟩ := call
    cases kind with
    | clampPessimistic => exact hcalls.clampPessimistic
    | observeHeaders headers => exact hcalls.observeHeaders hcall
    | observeFull limit remaining reset => cases hcall
    | shouldDefer => exact hcalls.shouldDefer

theorem headroom_iff {calls : List TimedCall} (h : NoneReceived calls) (now : DateTime) :
    (afterAll calls).Headroom now ↔ Reopened calls now := by
  have htracks := tracks_afterAll h
  rw [Headroom, Recent, Reopened, htracks.remaining, htracks.reset, htracks.observedAt]
  cases clampedAt calls with
  | none => simp
  | some clamped => cases lastReset calls <;> cases lastHeaders calls <;> simp [and_comm]

/-- For every sequence of calls on a fresh snapshot, at whatever times: the gate stays
closed as long as no value has been received if and only if no question falls where a
clamp has run out. -/
theorem stays_closed_iff (calls : List TimedCall) :
    StaysClosed calls ↔ ∀ pre now post, calls = pre ++ (.shouldDefer, now) :: post →
      NoneReceived pre → ¬ Reopened pre now := by
  apply forall₅_congr
  intro pre now post _ hnone
  rw [← headroom_iff hnone, ← shouldDefer_eq_none_iff, Option.isSome_iff_ne_none]

/-- A first poll fails and nothing else arrives: a minute later the gate is open. -/
theorem clamp_reopens :
    ¬ StaysClosed [(.clampPessimistic, 0), (.shouldDefer, (seconds 60 : Nat))] := by
  intro h
  have hclosed := h [(.clampPessimistic, 0)] _ [] rfl fun call hcall => by
    obtain rfl := List.mem_singleton.mp hcall
    rfl
  exact absurd hclosed (by decide)

end Gcit.Github.RateLimitSnapshot
