import Gcit.Git.Strategy
import Gcit.Library.Transition

/-! # The minimum-interval gate

A call of `acquire` reserves its slot under the lock, sleeps without it and takes it once
more on waking. Any number of such calls and of `try_acquire` share one bucket; a call
that is dropped while it waits leaves its reservation behind.
-/

namespace Gcit.Git

open Gcit.Library

/-- A reading of the monotonic clock. -/
abbrev Instant := Nat

structure RateBucket where
  minInterval : Duration
  last : Option Instant
  deriving DecidableEq, Repr

namespace RateBucket

def new (minInterval : Duration) : RateBucket := ⟨minInterval, none⟩

/-- `acquire` up to its sleep. -/
def reserve (b : RateBucket) (now : Instant) : Instant × RateBucket :=
  let target := match b.last with
    | none => now
    | some prev =>
      let earliest := prev + b.minInterval
      if earliest > now then earliest else now
  (target, { b with last := some target })

/-- `acquire` after its sleep. -/
def settle (b : RateBucket) (now : Instant) : RateBucket :=
  match b.last with
  | some prev => if now > prev then { b with last := some now } else b
  | none => b

def tryAcquire (b : RateBucket) (now : Instant) : Except Duration Unit × RateBucket :=
  match b.last with
  | none => (.ok (), { b with last := some now })
  | some prev =>
    let target := prev + b.minInterval
    if target > now then (.error (target - now), b) else (.ok (), { b with last := some now })

/-- The slot that comes next; a new bucket has none. -/
def nextSlot (b : RateBucket) : Option Instant := b.last.map (· + b.minInterval)

def Forward (b b' : RateBucket) : Prop :=
  b'.minInterval = b.minInterval ∧ ∀ prev ∈ b.last, ∃ prev' ∈ b'.last, prev ≤ prev'

variable {b b' b'' : RateBucket} {now : Instant}

theorem Forward.refl (b : RateBucket) : Forward b b := ⟨rfl, fun prev h => ⟨prev, h, Nat.le_refl _⟩⟩

theorem Forward.trans (h : Forward b b') (h' : Forward b' b'') : Forward b b'' := by
  refine ⟨h'.1.trans h.1, fun prev hprev => ?_⟩
  obtain ⟨prev', hprev', hle⟩ := h.2 prev hprev
  obtain ⟨prev'', hprev'', hle'⟩ := h'.2 prev' hprev'
  exact ⟨prev'', hprev'', Nat.le_trans hle hle'⟩

theorem Forward.nextSlot (h : Forward b b') {slot : Instant} (hslot : slot ∈ b.nextSlot) :
    ∃ slot' ∈ b'.nextSlot, slot ≤ slot' := by
  obtain ⟨prev, hprev, rfl⟩ := Option.map_eq_some_iff.mp hslot
  obtain ⟨prev', hprev', hle⟩ := h.2 prev hprev
  refine ⟨prev' + b'.minInterval, Option.map_eq_some_iff.mpr ⟨prev', hprev', rfl⟩, ?_⟩
  rw [h.1]
  exact Nat.add_le_add_right hle _

/-- A granted slot becomes the last, and is none before the next slot. -/
structure Grants (b b' : RateBucket) (slot : Instant) : Prop where
  minInterval : b'.minInterval = b.minInterval
  last : b'.last = some slot
  spaced : ∀ prev ∈ b.last, prev + b.minInterval ≤ slot

theorem Grants.forward {slot : Instant} (h : Grants b b' slot) : Forward b b' :=
  ⟨h.minInterval, fun prev hprev =>
    ⟨slot, h.last, Nat.le_trans (Nat.le_add_right _ _) (h.spaced prev hprev)⟩⟩

theorem grants_reserve (b : RateBucket) (now : Instant) :
    Grants b (b.reserve now).2 (b.reserve now).1 ∧ now ≤ (b.reserve now).1 := by
  obtain ⟨minInterval, last⟩ := b
  cases last with
  | none => exact ⟨⟨rfl, rfl, nofun⟩, Nat.le_refl now⟩
  | some prev =>
    simp only [reserve]
    split
    case isTrue hahead =>
      refine ⟨⟨rfl, rfl, ?_⟩, Nat.le_of_lt hahead⟩
      rintro _ ⟨⟩
      exact Nat.le_refl _
    case isFalse hpast =>
      refine ⟨⟨rfl, rfl, ?_⟩, Nat.le_refl now⟩
      rintro _ ⟨⟩
      exact Nat.le_of_not_lt hpast

theorem forward_settle (b : RateBucket) (now : Instant) : Forward b (b.settle now) := by
  obtain ⟨minInterval, last⟩ := b
  cases last with
  | none => exact .refl _
  | some prev =>
    simp only [settle]
    split
    case isTrue hlate =>
      refine ⟨rfl, ?_⟩
      rintro _ ⟨⟩
      exact ⟨now, rfl, Nat.le_of_lt hlate⟩
    case isFalse => exact .refl _

/-- What `try_acquire` does: it takes the next slot where that has come, and tells how
far ahead it is where it has not. -/
theorem tryAcquire_cases (b : RateBucket) (now : Instant) :
    ((b.tryAcquire now).1 = .ok () ∧ Grants b (b.tryAcquire now).2 now ∧
        ∀ slot ∈ b.nextSlot, slot ≤ now) ∨
      ∃ wait, (b.tryAcquire now).1 = .error wait ∧ (b.tryAcquire now).2 = b ∧ 0 < wait ∧
        b.nextSlot = some (now + wait) := by
  obtain ⟨minInterval, last⟩ := b
  cases last with
  | none => exact .inl ⟨rfl, ⟨rfl, rfl, nofun⟩, nofun⟩
  | some prev =>
    simp only [tryAcquire]
    split
    case isTrue hahead =>
      refine .inr ⟨_, rfl, rfl, Nat.sub_pos_of_lt hahead, ?_⟩
      exact congrArg some (Nat.add_sub_of_le (Nat.le_of_lt hahead)).symm
    case isFalse hpast =>
      have hcome : prev + minInterval ≤ now := Nat.le_of_not_lt hpast
      refine .inl ⟨rfl, ⟨rfl, rfl, ?_⟩, ?_⟩
      · rintro _ ⟨⟩
        exact hcome
      · rintro _ ⟨⟩
        exact hcome

end RateBucket

/-- Where a call of `acquire` stands that has reserved its slot. -/
inductive AcquirePc where
  | sleeping
  | relocking
  | returned (at_ : Instant)
  | dropped
  deriving DecidableEq, Repr

structure AcquireCall where
  reservedAt : Instant
  pc : AcquirePc
  deriving DecidableEq, Repr

/-- A call of `try_acquire` with the slot that came next. -/
structure TryCall where
  slot : Option Instant
  now : Instant
  outcome : Except Duration Unit

/-- `granted` lists the slots in the order in which they were granted. -/
structure SharedBucket where
  bucket : RateBucket
  now : Instant
  calls : List AcquireCall
  tries : List TryCall
  granted : List Instant

inductive BucketEvent where
  | tick (elapsed : Duration)
  | reserve
  | wake (call : Nat)
  | settle (call : Nat)
  | drop (call : Nat)
  | tryAcquire
  deriving DecidableEq, Repr

namespace SharedBucket

def start (minInterval : Duration) (now : Instant) : SharedBucket :=
  ⟨.new minInterval, now, [], [], []⟩

def move (s : SharedBucket) (i : Nat) (pc : AcquirePc) : SharedBucket :=
  { s with calls := s.calls.modify i fun call => { call with pc := pc } }

/-- `sleep_until` is over when its deadline has come, and no sooner. -/
def step (s : SharedBucket) : BucketEvent → Option SharedBucket
  | .tick elapsed => some { s with now := s.now + elapsed }
  | .reserve =>
    let (slot, bucket) := s.bucket.reserve s.now
    some { s with
      bucket
      calls := s.calls ++ [⟨slot, .sleeping⟩]
      granted := s.granted ++ [slot] }
  | .wake i => match s.calls[i]? with
    | some ⟨reservedAt, .sleeping⟩ => if reservedAt ≤ s.now then some (s.move i .relocking) else none
    | _ => none
  | .settle i => match s.calls[i]? with
    | some ⟨_, .relocking⟩ =>
      some { s.move i (.returned s.now) with bucket := s.bucket.settle s.now }
    | _ => none
  | .drop i => match s.calls[i]? with
    | some ⟨_, .sleeping⟩ | some ⟨_, .relocking⟩ => some (s.move i .dropped)
    | _ => none
  | .tryAcquire =>
    let (outcome, bucket) := s.bucket.tryAcquire s.now
    some { s with
      bucket
      tries := s.tries ++ [⟨s.bucket.nextSlot, s.now, outcome⟩]
      granted := match outcome with
        | .ok () => s.granted ++ [s.now]
        | .error _ => s.granted }

def AwakeAfterSlot (now : Instant) (call : AcquireCall) : Prop :=
  match call.pc with
  | .sleeping | .dropped => True
  | .relocking => call.reservedAt ≤ now
  | .returned at_ => call.reservedAt ≤ at_

structure TryCall.Sound (t : TryCall) : Prop where
  ok : t.outcome = .ok () → ∀ slot ∈ t.slot, slot ≤ t.now
  error : ∀ wait, t.outcome = .error wait → 0 < wait ∧ t.slot = some (t.now + wait)

structure Sound (s : SharedBucket) : Prop where
  spaced : s.granted.Pairwise fun slot later => slot + s.bucket.minInterval ≤ later
  behind : ∀ slot ∈ s.granted, ∃ prev ∈ s.bucket.last, slot ≤ prev
  reserved : ∀ call ∈ s.calls, call.reservedAt ∈ s.granted
  awake : ∀ call ∈ s.calls, AwakeAfterSlot s.now call
  tries : ∀ t ∈ s.tries, TryCall.Sound t

variable {s t : SharedBucket}

theorem sound_start (minInterval : Duration) (now : Instant) : (start minInterval now).Sound :=
  ⟨.nil, nofun, nofun, nofun, nofun⟩

theorem forall_move {i : Nat} {pc : AcquirePc} {P : AcquireCall → Prop}
    (hcalls : ∀ call ∈ s.calls, P call)
    (hmoved : ∀ call, s.calls[i]? = some call → P { call with pc := pc }) :
    ∀ call ∈ (s.move i pc).calls, P call := by
  intro call hcall
  obtain ⟨j, hj⟩ := List.mem_iff_getElem?.mp hcall
  rw [move, List.getElem?_modify] at hj
  obtain ⟨old, hold, rfl⟩ := Option.map_eq_some_iff.mp hj
  split
  case isTrue hij => exact hmoved old (hij ▸ hold)
  case isFalse => exact hcalls old (List.mem_of_getElem? hold)

namespace Sound

theorem tick (h : s.Sound) (elapsed : Duration) : Sound { s with now := s.now + elapsed } := by
  refine ⟨h.spaced, h.behind, h.reserved, fun call hcall => ?_, h.tries⟩
  have hawake := h.awake call hcall
  unfold AwakeAfterSlot at hawake ⊢
  split
  case h_1 => trivial
  case h_2 => trivial
  case h_3 hpc =>
    rw [hpc] at hawake
    exact Nat.le_trans hawake (Nat.le_add_right _ _)
  case h_4 hpc =>
    rw [hpc] at hawake
    exact hawake

theorem spaced_grant (h : s.Sound) {bucket : RateBucket} {slot : Instant}
    (hgrant : s.bucket.Grants bucket slot) :
    (s.granted ++ [slot]).Pairwise (fun slot later => slot + bucket.minInterval ≤ later) ∧
      ∀ slot' ∈ s.granted ++ [slot], ∃ prev ∈ bucket.last, slot' ≤ prev := by
  have hlast : ∀ slot' ∈ s.granted, slot' + s.bucket.minInterval ≤ slot := by
    intro slot' hslot'
    obtain ⟨prev, hprev, hle⟩ := h.behind slot' hslot'
    exact Nat.le_trans (Nat.add_le_add_right hle _) (hgrant.spaced prev hprev)
  rw [hgrant.minInterval]
  constructor
  · refine List.pairwise_append.mpr ⟨h.spaced, List.pairwise_singleton _ _, ?_⟩
    rintro slot' hslot' later hlater
    rw [List.mem_singleton.mp hlater]
    exact hlast slot' hslot'
  · intro slot' hslot'
    refine ⟨slot, hgrant.last, ?_⟩
    obtain hslot' | hslot' := List.mem_append.mp hslot'
    · exact Nat.le_trans (Nat.le_add_right _ _) (hlast slot' hslot')
    · exact Nat.le_of_eq (List.mem_singleton.mp hslot')

theorem move (h : s.Sound) {i : Nat} {pc : AcquirePc} {bucket : RateBucket}
    (hforward : s.bucket.Forward bucket)
    (hawake : ∀ call, s.calls[i]? = some call → AwakeAfterSlot s.now { call with pc := pc }) :
    Sound { s.move i pc with bucket := bucket } := by
  constructor
  · change s.granted.Pairwise fun slot later => slot + bucket.minInterval ≤ later
    rw [hforward.1]
    exact h.spaced
  · intro slot hslot
    obtain ⟨prev, hprev, hle⟩ := h.behind slot hslot
    obtain ⟨prev', hprev', hle'⟩ := hforward.2 prev hprev
    exact ⟨prev', hprev', Nat.le_trans hle hle'⟩
  · exact forall_move h.reserved fun call hcall => h.reserved call (List.mem_of_getElem? hcall)
  · exact forall_move h.awake hawake
  · exact h.tries

theorem step {e : BucketEvent} (h : s.Sound) (hstep : s.step e = some t) : t.Sound := by
  cases e with
  | tick elapsed =>
    cases hstep
    exact h.tick elapsed
  | reserve =>
    cases hstep
    obtain ⟨hgrant, -⟩ := s.bucket.grants_reserve s.now
    obtain ⟨hspaced, hbehind⟩ := h.spaced_grant hgrant
    refine ⟨hspaced, hbehind, fun call hcall => ?_, fun call hcall => ?_, h.tries⟩
    · obtain hcall | hcall := List.mem_append.mp hcall
      · exact List.mem_append_left _ (h.reserved call hcall)
      · rw [List.mem_singleton.mp hcall]
        exact List.mem_append_right _ List.mem_cons_self
    · obtain hcall | hcall := List.mem_append.mp hcall
      · exact h.awake call hcall
      · rw [List.mem_singleton.mp hcall]
        trivial
  | wake i =>
    simp only [SharedBucket.step] at hstep
    split at hstep
    case h_1 reservedAt hcall =>
      obtain ⟨hcome, rfl⟩ := Transition.guard_eq_some.mp hstep
      apply h.move (.refl _)
      intro call hi
      cases hcall.symm.trans hi
      exact hcome
    case h_2 => cases hstep
  | settle i =>
    simp only [SharedBucket.step] at hstep
    split at hstep
    case h_1 reservedAt hcall =>
      cases hstep
      apply h.move (RateBucket.forward_settle _ _)
      intro call hi
      cases hcall.symm.trans hi
      have hawake := h.awake _ (List.mem_of_getElem? hcall)
      exact hawake
    case h_2 => cases hstep
  | drop i =>
    simp only [SharedBucket.step] at hstep
    split at hstep
    case h_1 =>
      cases hstep
      exact h.move (.refl _) fun _ _ => trivial
    case h_2 =>
      cases hstep
      exact h.move (.refl _) fun _ _ => trivial
    case h_3 => cases hstep
  | tryAcquire =>
    simp only [SharedBucket.step, Option.some.injEq] at hstep
    have htries (call : TryCall) (hcall : TryCall.Sound call) :
        ∀ t ∈ s.tries ++ [call], TryCall.Sound t := by
      intro t ht
      obtain ht | ht := List.mem_append.mp ht
      · exact h.tries t ht
      · exact List.mem_singleton.mp ht ▸ hcall
    obtain ⟨hok, hgrant, hcome⟩ | ⟨wait, herror, hsame, hwait, hslot⟩ :=
      s.bucket.tryAcquire_cases s.now
    · obtain ⟨hspaced, hbehind⟩ := h.spaced_grant hgrant
      rw [hok] at hstep
      subst hstep
      refine ⟨hspaced, hbehind, fun call hcall => ?_, h.awake, htries _ ⟨fun _ => hcome, nofun⟩⟩
      exact List.mem_append_left _ (h.reserved call hcall)
    · rw [herror, hsame] at hstep
      subst hstep
      refine ⟨h.spaced, h.behind, h.reserved, h.awake, htries _ ⟨nofun, ?_⟩⟩
      rintro _ ⟨⟩
      exact ⟨hwait, hslot⟩

end Sound

theorem forward_step {e : BucketEvent} (hstep : s.step e = some t) : s.bucket.Forward t.bucket := by
  cases e with
  | tick elapsed =>
    cases hstep
    exact .refl _
  | reserve =>
    cases hstep
    exact (s.bucket.grants_reserve s.now).1.forward
  | wake i =>
    simp only [step] at hstep
    split at hstep
    case h_1 =>
      obtain ⟨-, rfl⟩ := Transition.guard_eq_some.mp hstep
      exact .refl _
    case h_2 => cases hstep
  | settle i =>
    simp only [step] at hstep
    split at hstep
    case h_1 =>
      cases hstep
      exact s.bucket.forward_settle s.now
    case h_2 => cases hstep
  | drop i =>
    simp only [step] at hstep
    split at hstep
    case h_1 => cases hstep; exact .refl _
    case h_2 => cases hstep; exact .refl _
    case h_3 => cases hstep
  | tryAcquire =>
    cases hstep
    obtain ⟨-, hgrant, -⟩ | ⟨-, -, hsame, -⟩ := s.bucket.tryAcquire_cases s.now
    · exact hgrant.forward
    · change s.bucket.Forward (s.bucket.tryAcquire s.now).2
      rw [hsame]
      exact .refl _

theorem forward_run {events : List BucketEvent} (hrun : Transition.run step s events = some t) :
    s.bucket.Forward t.bucket :=
  Transition.invariant_run (I := fun u => s.bucket.Forward u.bucket)
    (fun _ _ _ h hstep => h.trans (forward_step hstep)) (.refl _) hrun

/-- Whoever asks and whoever gives up, granted slots are a minimum interval apart, nobody
returns before their slot, and the next slot never moves backwards. -/
theorem slots_spaced {minInterval : Duration} {now : Instant} {events : List BucketEvent}
    (hrun : Transition.run step (start minInterval now) events = some s) :
    (s.granted.Pairwise fun slot later => slot + minInterval ≤ later) ∧
      (∀ call ∈ s.calls, call.reservedAt ∈ s.granted ∧
        ∀ at_, call.pc = .returned at_ → call.reservedAt ≤ at_) ∧
      (∀ t ∈ s.tries, t.outcome = .ok () → ∀ slot ∈ t.slot, slot ≤ t.now) ∧
      ∀ more t, Transition.run step s more = some t →
        ∀ slot ∈ s.bucket.nextSlot, ∃ slot' ∈ t.bucket.nextSlot, slot ≤ slot' := by
  have hsound : s.Sound :=
    Transition.invariant_run (fun _ _ _ h hstep => h.step hstep) (sound_start minInterval now) hrun
  have hinterval : s.bucket.minInterval = minInterval := (forward_run hrun).1
  refine ⟨hinterval ▸ hsound.spaced, fun call hcall => ⟨hsound.reserved call hcall, ?_⟩,
    fun t ht => (hsound.tries t ht).ok, fun more t hmore slot hslot => ?_⟩
  · intro at_ hreturned
    have hawake := hsound.awake call hcall
    rw [AwakeAfterSlot, hreturned] at hawake
    exact hawake
  · exact (forward_run hmore).nextSlot hslot

/-- The second caller gives up before its slot, and the one after it is granted to a third. -/
theorem slots_spaced_past_drop :
    ∃ s, Transition.run step (start 10 100)
        [.reserve, .reserve, .tryAcquire, .drop 1, .wake 0, .settle 0, .tick 20, .tryAcquire] =
          some s ∧
      s.granted = [100, 110, 120] ∧ s.granted.Pairwise fun slot later => slot + 10 ≤ later := by
  obtain ⟨s, hrun, hgranted⟩ : ∃ s, Transition.run step (start 10 100)
        [.reserve, .reserve, .tryAcquire, .drop 1, .wake 0, .settle 0, .tick 20, .tryAcquire] =
          some s ∧ s.granted = [100, 110, 120] := ⟨_, rfl, rfl⟩
  exact ⟨s, hrun, hgranted, (slots_spaced hrun).1⟩

end SharedBucket

end Gcit.Git
