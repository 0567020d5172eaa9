import Gcit.Github.RateLimitGate

/-! # A window that is used up

What the gate makes of a quota that is known to be zero and a reset that lies ahead,
after any calls on a fresh snapshot. An old observation is treated as none.
-/

namespace Gcit.Github.RateLimitSnapshot

open Std Gcit Gcit.Git Gcit.Library

def latestRemaining (calls : List TimedCall) : Option UInt64 :=
  Trace.latest (fun call => call.1.received) calls

/-- The instant that a received epoch stands for, whether a date can hold it or not. -/
def Call.resetReceived : Call → Option DateTime
  | .observeHeaders headers => headers.reset.map fun epoch => (epoch.toNat : Int) * 1000000000
  | .observeFull _ _ reset => some reset
  | .clampPessimistic | .shouldDefer => none

def latestReset (calls : List TimedCall) : Option DateTime :=
  Trace.latest (fun call => call.1.resetReceived) calls

def observedBy (call : TimedCall) : Option DateTime :=
  match call.1 with
  | .observeHeaders headers => if observes headers then some call.2 else none
  | .observeFull .. => some call.2
  | .clampPessimistic | .shouldDefer => none

def lastObservation (calls : List TimedCall) : Option DateTime := Trace.latest observedBy calls

def MAX_UTC : DateTime := 8210266876799999999999

theorem timestampOpt_of_le {epoch : UInt64} (h : (epoch.toNat : Int) * 1000000000 ≤ MAX_UTC) :
    timestampOpt epoch = some ((epoch.toNat : Int) * 1000000000) := by
  have hsecs : (epoch.toNat : Int) ≤ 8210266876799 := by
    simp only [MAX_UTC] at h
    omega
  have hsigned : epoch.toInt64.toInt = (epoch.toNat : Int) := by
    have hsmall : 2 * epoch.toBitVec.toNat < 2 ^ 64 := by
      rw [UInt64.toNat_toBitVec]
      omega
    exact BitVec.toInt_eq_toNat_of_lt hsmall
  simp only [timestampOpt, hsigned]
  rw [if_pos]
  omega

/-- What a snapshot holds of what was received. -/
structure Follows (calls : List TimedCall) (s : RateLimitSnapshot) : Prop where
  remaining : ∀ r ∈ latestRemaining calls, s.remaining = some r.toNat
  reset : ∀ t ∈ latestReset calls, t ≤ MAX_UTC → s.reset = some t
  observedAt : ∀ t ∈ lastObservation calls, s.observedAt = some t
  remainingObserved : (latestRemaining calls).isSome → (lastObservation calls).isSome
  resetObserved : ∀ t ∈ latestReset calls, t ≤ MAX_UTC → (lastObservation calls).isSome

namespace Follows

variable {calls : List TimedCall} {s : RateLimitSnapshot} {now : DateTime}

theorem new : Follows [] new := ⟨nofun, nofun, nofun, nofun, nofun⟩

theorem silent {call : TimedCall} (h : Follows calls s) (hreceived : call.1.received = none)
    (hreset : call.1.resetReceived = none) (hobserved : observedBy call = none) :
    Follows (calls ++ [call]) s := by
  have hr : latestRemaining (calls ++ [call]) = latestRemaining calls := by
    rw [latestRemaining, Trace.latest_concat, hreceived]
    rfl
  have ht : latestReset (calls ++ [call]) = latestReset calls := by
    rw [latestReset, Trace.latest_concat, hreset]
    rfl
  have ho : lastObservation (calls ++ [call]) = lastObservation calls := by
    rw [lastObservation, Trace.latest_concat, hobserved]
    rfl
  constructor
  · rw [hr]; exact h.remaining
  · rw [ht]; exact h.reset
  · rw [ho]; exact h.observedAt
  · rw [hr, ho]; exact h.remainingObserved
  · rw [ht, ho]; exact h.resetObserved

theorem clampPessimistic (h : Follows calls s) :
    Follows (calls ++ [(.clampPessimistic, now)]) (s.clampPessimistic now) := by
  have hsame : Follows (calls ++ [(.clampPessimistic, now)]) s := h.silent rfl rfl rfl
  rw [RateLimitSnapshot.clampPessimistic]
  split
  case isTrue => exact hsame
  case isFalse hfresh =>
    -- nothing was observed, so nothing was received that a date can hold
    have hnever : lastObservation (calls ++ [(.clampPessimistic, now)]) = none := by
      rw [Option.eq_none_iff_forall_not_mem]
      intro t ht
      rw [hsame.observedAt t ht] at hfresh
      exact hfresh rfl
    constructor
    · intro r hr
      have hseen := hsame.remainingObserved (Option.isSome_of_mem hr)
      rw [hnever] at hseen
      cases hseen
    · intro t ht hle
      have hseen := hsame.resetObserved t ht hle
      rw [hnever] at hseen
      cases hseen
    · rw [hnever]; exact nofun
    · exact hsame.remainingObserved
    · exact hsame.resetObserved

theorem observeFull {limit remaining : UInt64} {reset : DateTime} :
    Follows (calls ++ [(.observeFull limit remaining reset, now)])
      (s.observeFull limit remaining reset now) := by
  have hr : latestRemaining (calls ++ [(.observeFull limit remaining reset, now)]) =
      some remaining := Trace.latest_concat _ _ _
  have ht : latestReset (calls ++ [(.observeFull limit remaining reset, now)]) = some reset :=
    Trace.latest_concat _ _ _
  have ho : lastObservation (calls ++ [(.observeFull limit remaining reset, now)]) = some now :=
    Trace.latest_concat _ _ _
  constructor
  · rw [hr]; rintro r ⟨⟩; rfl
  · rw [ht]; rintro t ⟨⟩ -; rfl
  · rw [ho]; rintro t ⟨⟩; rfl
  · rw [ho]; exact fun _ => rfl
  · rw [ho]; exact fun _ _ _ => rfl

theorem observeHeaders {headers : RateLimitHeaders} (h : Follows calls s) :
    Follows (calls ++ [(.observeHeaders headers, now)]) (s.observeHeaders headers now) := by
  have hr : latestRemaining (calls ++ [(.observeHeaders headers, now)]) =
      headers.remaining.or (latestRemaining calls) := Trace.latest_concat _ _ _
  have ht : latestReset (calls ++ [(.observeHeaders headers, now)]) =
      (headers.reset.map fun epoch => (epoch.toNat : Int) * 1000000000).or (latestReset calls) :=
    Trace.latest_concat _ _ _
  have ho : lastObservation (calls ++ [(.observeHeaders headers, now)]) =
      (if observes headers then some now else none).or (lastObservation calls) :=
    Trace.latest_concat _ _ _
  have hfits (t : DateTime) (hle : t ≤ MAX_UTC)
      (hmem : t ∈ headers.reset.map fun epoch => (epoch.toNat : Int) * 1000000000) :
      headers.reset.bind timestampOpt = some t := by
    obtain ⟨epoch, hepoch, rfl⟩ := Option.map_eq_some_iff.mp hmem
    rw [hepoch]
    exact timestampOpt_of_le hle
  rw [RateLimitSnapshot.observeHeaders]
  cases hobserves : observes headers with
  | false =>
    rw [hobserves] at ho
    simp only [observes, Bool.or_eq_false_iff, Option.isSome_eq_false_iff,
      Option.isNone_iff_eq_none] at hobserves
    obtain ⟨⟨hremaining, hreset⟩, -⟩ := hobserves
    rw [hremaining] at hr
    -- a reset that was received all the same is one that no date can hold
    have hold (t : DateTime) (hle : t ≤ MAX_UTC)
        (hmem : t ∈ latestReset (calls ++ [(.observeHeaders headers, now)])) :
        t ∈ latestReset calls := by
      rw [ht] at hmem
      obtain hnew | ⟨-, hold⟩ := Option.or_eq_some_iff.mp hmem
      · rw [hfits t hle hnew] at hreset
        cases hreset
      · exact hold
    constructor
    · rw [hr]; exact h.remaining
    · exact fun t hmem hle => h.reset t (hold t hle hmem) hle
    · rw [ho]; exact h.observedAt
    · rw [hr, ho]; exact h.remainingObserved
    · rw [ho]; exact fun t hmem hle => h.resetObserved t (hold t hle hmem) hle
  | true =>
    rw [hobserves] at ho
    constructor
    · intro r hmem
      rw [hr] at hmem
      obtain hnew | ⟨hnone, hold⟩ := Option.or_eq_some_iff.mp hmem
      · simp [hnew]
      · simpa [hnone] using h.remaining r hold
    · intro t hmem hle
      rw [ht] at hmem
      obtain hnew | ⟨hnone, hold⟩ := Option.or_eq_some_iff.mp hmem
      · simp [hfits t hle hnew]
      · have hreset : headers.reset = none := Option.map_eq_none_iff.mp hnone
        simpa [hreset] using h.reset t hold hle
    · rw [ho]; rintro t ⟨⟩; rfl
    · rw [ho]; exact fun _ => rfl
    · rw [ho]; exact fun _ _ _ => rfl

theorem afterAll (calls : List TimedCall) : Follows calls (RateLimitSnapshot.afterAll calls) := by
  induction calls using List.reverseRecOn with
  | nil => exact .new
  | append_singleton calls call ih =>
    obtain ⟨call, now⟩ := call
    rw [RateLimitSnapshot.afterAll, List.foldl_append]
    cases call with
    | clampPessimistic => exact ih.clampPessimistic
    | observeHeaders headers => exact ih.observeHeaders
    | observeFull limit remaining reset => exact observeFull (s := RateLimitSnapshot.afterAll calls)
    | shouldDefer => exact ih.silent rfl rfl rfl

end Follows

/-- For every sequence of calls on a fresh snapshot and every instant: while a quota of
zero is the last that was received and the last reset received is a date that lies ahead,
the gate tells to wait for that reset, or a poll interval long if nothing was observed of
late. -/
theorem exhausted_window_deferred (calls : List TimedCall) (now reset : DateTime)
    (hremaining : latestRemaining calls = some 0) (hreset : latestReset calls = some reset)
    (hdate : reset ≤ MAX_UTC) (hahead : now < reset) :
    ∃ observedAt, lastObservation calls = some observedAt ∧
      ∃ wait, (afterAll calls).shouldDefer now = some wait ∧
        (now - observedAt ≤ (POLL_INTERVAL * 2 : Nat) → now + wait = reset) ∧
        ((POLL_INTERVAL * 2 : Nat) < now - observedAt → wait = POLL_INTERVAL) := by
  have hfollows := Follows.afterAll calls
  have hzero : (afterAll calls).remaining = some 0 := hfollows.remaining 0 hremaining
  have hknown : (afterAll calls).reset = some reset := hfollows.reset reset hreset hdate
  obtain ⟨observedAt, hlast⟩ := Option.isSome_iff_exists.mp
    (hfollows.remainingObserved (Option.isSome_of_mem hremaining))
  have hobserved : (afterAll calls).observedAt = some observedAt :=
    hfollows.observedAt observedAt hlast
  refine ⟨observedAt, hlast, ?_⟩
  simp only [shouldDefer, hobserved, hzero, hknown, gt_iff_lt, if_pos hahead]
  split
  case isTrue hold =>
    exact ⟨POLL_INTERVAL, rfl, fun hrecent => absurd hrecent (Int.not_le.mpr hold), fun _ => rfl⟩
  case isFalse hrecent =>
    refine ⟨(reset - now).toNat, rfl, fun _ => ?_, fun hold => absurd hold hrecent⟩
    have hpositive : 0 ≤ reset - now := Int.sub_nonneg_of_le (Int.le_of_lt hahead)
    rw [Int.toNat_of_nonneg hpositive]
    rw [Int.add_comm, Int.sub_add_cancel]

/-- The quota was used up an hour before its reset, and a minute later a header told so
again without the reset. -/
theorem exhausted_window_deferred_by_header :
    ∃ wait, (afterAll [(.observeFull 5000 0 (seconds 3600), 0),
        (.observeHeaders ⟨some 0, none, none⟩, seconds 60)]).shouldDefer (seconds 180) =
          some wait ∧ seconds 180 + wait = seconds 3600 := by
  obtain ⟨observedAt, hlast, wait, hwait, hrecent, -⟩ := exhausted_window_deferred
    [(.observeFull 5000 0 (seconds 3600), 0), (.observeHeaders ⟨some 0, none, none⟩, seconds 60)]
    (seconds 180) (seconds 3600) rfl rfl (by decide) (by decide)
  cases hlast
  exact ⟨wait, hwait, by exact_mod_cast hrecent (by decide)⟩

/-- Nothing was heard for two minutes: the gate tells to wait for a minute, not for the
hour that the reset is away. -/
theorem stale_window_cut_short :
    ¬ ∀ (calls : List TimedCall) (now reset : DateTime), latestRemaining calls = some 0 →
      latestReset calls = some reset → now < reset →
        ∃ wait, (afterAll calls).shouldDefer now = some wait ∧ reset ≤ now + wait := by
  intro h
  obtain ⟨wait, hwait, hlong⟩ := h [(.observeFull 5000 0 (seconds 3600), 0)] (seconds 121)
    (seconds 3600) rfl rfl (by decide)
  cases hwait
  exact absurd hlong (by decide)

end Gcit.Github.RateLimitSnapshot
