import Gcit.Github.Dispatcher

/-! # A credential's rate-limit snapshot

What changes the snapshot: the poller's own answers, the headers of any other
answer, and the clamp after a first poll that failed. A request may go out at once
where the snapshot is recent and leaves headroom.
-/

namespace Gcit.Github

open Std Gcit Gcit.Git Gcit.Library

def FIRST_FAILURE_RESET_WINDOW : Duration := POLL_INTERVAL

/-- The three headers of an answer, where they are there and are numbers. -/
structure RateLimitHeaders where
  remaining : Option UInt64 := none
  reset : Option UInt64 := none
  limit : Option UInt64 := none
  deriving DecidableEq

/-- `Utc.timestamp_opt(epoch as i64, 0).single()`. -/
def timestampOpt (epoch : UInt64) : Option DateTime :=
  let secs := epoch.toInt64.toInt
  if -8334601228800 ≤ secs ∧ secs ≤ 8210266876799 then some (secs * 1000000000) else none

namespace RateLimitSnapshot

def new : RateLimitSnapshot := ⟨none, none, none, none⟩

def observeFull (s : RateLimitSnapshot) (limit remaining : UInt64) (reset now : DateTime) :
    RateLimitSnapshot :=
  { s with
    limit := some limit.toNat
    remaining := some remaining.toNat
    reset := some reset
    observedAt := some now }

/-- The headers tell something, so that the snapshot counts as observed. -/
def observes (headers : RateLimitHeaders) : Bool :=
  headers.remaining.isSome || (headers.reset.bind timestampOpt).isSome || headers.limit.isSome

def observeHeaders (s : RateLimitSnapshot) (headers : RateLimitHeaders) (now : DateTime) :
    RateLimitSnapshot :=
  if observes headers then
    { remaining := (headers.remaining.map UInt64.toNat).or s.remaining
      limit := (headers.limit.map UInt64.toNat).or s.limit
      reset := (headers.reset.bind timestampOpt).or s.reset
      observedAt := some now }
  else s

def clampPessimistic (s : RateLimitSnapshot) (now : DateTime) : RateLimitSnapshot :=
  if s.observedAt.isSome then s
  else ⟨some 0, some 0, some (now + FIRST_FAILURE_RESET_WINDOW), some now⟩

def Recent (s : RateLimitSnapshot) (now : DateTime) : Prop :=
  ∀ observedAt ∈ s.observedAt, now - observedAt ≤ (POLL_INTERVAL * 2 : Nat)

/-- Something recent was observed, and what remains of the quota is known and is not
zero up to a reset that lies ahead. -/
def Headroom (s : RateLimitSnapshot) (now : DateTime) : Prop :=
  s.observedAt.isSome ∧ s.Recent now ∧
    ∃ remaining ∈ s.remaining, remaining = 0 → ∀ reset ∈ s.reset, reset ≤ now

variable {s : RateLimitSnapshot} {now : DateTime}

instance decidableRecent : Decidable (s.Recent now) :=
  inferInstanceAs (Decidable (∀ observedAt ∈ s.observedAt, _))

instance decidableHeadroom : Decidable (s.Headroom now) :=
  inferInstanceAs (Decidable (_ ∧ _ ∧ ∃ remaining ∈ s.remaining, _))

theorem shouldDefer_eq_none_iff : s.shouldDefer now = none ↔ s.Headroom now := by
  obtain ⟨remaining, limit, reset, observedAt⟩ := s
  cases observedAt with
  | none => simp [shouldDefer, Headroom]
  | some observedAt =>
    simp only [shouldDefer, Headroom, Recent, Option.isSome_some, true_and, Option.mem_def,
      Option.some.injEq, forall_eq']
    -- the age alone decides whether the snapshot is recent
    generalize now - observedAt = age, ((POLL_INTERVAL * 2 : Nat) : Int) = window
    by_cases hstale : window < age
    · simp [hstale, Int.not_le.mpr hstale]
    · have hrecent : age ≤ window := Int.not_lt.mp hstale
      cases remaining with
      | none => simp [hrecent]
      | some remaining =>
        cases remaining with
        | zero => cases reset <;> simp [hstale, hrecent]
        | succ remaining => simp [hstale, hrecent]

end RateLimitSnapshot

end Gcit.Github
