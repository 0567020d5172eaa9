import Mathlib.Order.MinMax
import Gcit.Github.Scans

/-! # The correlator on a clock

The rounds of one correlation on a timeline, with the token and the sleeps between
them. A sleep ends when its time is over or when the token is found cancelled, also
if it was cancelled before the sleep began.
-/

namespace Gcit.Github

open Std Gcit Gcit.Git Gcit.Library

def POLL_INTERVAL_MAX : Duration := seconds 60

/-- A round with the instants it passes: the token is read, the scans are over, the
sleep ends. The delay is the next one of the backoff schedule. -/
structure TimedCycle extends CorrelateCycle where
  polledAt : DateTime
  delay : Option Duration
  sleepFrom : DateTime
  wokenAt : DateTime

namespace TimedCycle

def nextDelay (c : TimedCycle) : Duration := c.delay.getD POLL_INTERVAL_MAX

def sleepFor (c : TimedCycle) (effectiveDeadline : DateTime) : Duration :=
  if c.sleepFrom < effectiveDeadline then min c.nextDelay (effectiveDeadline - c.sleepFrom).toNat
  else 0

def sleepEnd (c : TimedCycle) (effectiveDeadline : DateTime) : DateTime :=
  c.sleepFrom + Int.ofNat (c.sleepFor effectiveDeadline)

structure Ordered (c : TimedCycle) : Prop where
  polled : c.polledAt ≤ c.onset
  checked : c.onset ≤ c.now
  scanned : c.now ≤ c.sleepFrom
  woken : c.sleepFrom ≤ c.wokenAt

theorem Ordered.now_le_wokenAt {c : TimedCycle} (h : c.Ordered) : c.now ≤ c.wokenAt :=
  Int.le_trans h.scanned h.woken

theorem Ordered.polledAt_le_now {c : TimedCycle} (h : c.Ordered) : c.polledAt ≤ c.now :=
  Int.le_trans h.polled h.checked

theorem Ordered.polledAt_le_wokenAt {c : TimedCycle} (h : c.Ordered) : c.polledAt ≤ c.wokenAt :=
  Int.le_trans h.polledAt_le_now h.now_le_wokenAt

theorem sleepEnd_le (c : TimedCycle) (deadline : DateTime) :
    c.sleepEnd deadline ≤ max c.sleepFrom deadline := by
  unfold sleepEnd sleepFor
  split
  · next hlt =>
    have hmin : min c.nextDelay (deadline - c.sleepFrom).toNat ≤ (deadline - c.sleepFrom).toNat :=
      Nat.min_le_right _ _
    have hcast : ((deadline - c.sleepFrom).toNat : Int) = deadline - c.sleepFrom :=
      Int.toNat_of_nonneg (Int.sub_nonneg.mpr (Int.le_of_lt hlt))
    apply Int.le_trans (Int.add_le_add_left (Int.ofNat_le.mpr hmin) c.sleepFrom)
    rw [hcast, Int.add_comm, Int.sub_add_cancel]
    exact Int.le_max_right _ _
  · have hzero : c.sleepFrom + Int.ofNat 0 = c.sleepFrom := Int.add_zero _
    rw [hzero]
    exact Int.le_max_left _ _

end TimedCycle

def deadlineAfter (normalDeadline : DateTime) (pre : List TimedCycle) (c : TimedCycle) : DateTime :=
  computeEffectiveDeadline normalDeadline
    ((pre.map TimedCycle.toCorrelateCycle).foldl CorrelateCycle.drainStart none) c.toCorrelateCycle

structure CorrelateTrace where
  started : DateTime
  cancelAt : Option DateTime
  cycles : List TimedCycle
  ordered : ∀ c ∈ cycles, c.Ordered
  between : cycles.Pairwise fun c d => c.wokenAt ≤ d.polledAt
  token : ∀ c ∈ cycles, c.cancelled = true ↔ ∃ t ∈ cancelAt, t ≤ c.polledAt
  timer : ∀ pre c post, cycles = pre ++ c :: post → (∃ t ∈ cancelAt, t ≤ c.wokenAt) ∨
    c.sleepEnd (deadlineAfter (started + NORMAL_TIMEOUT) pre c) ≤ c.wokenAt

namespace CorrelateTrace

def Fired (trace : CorrelateTrace) (now : DateTime) : Prop := ∃ t ∈ trace.cancelAt, t ≤ now

def normalDeadline (trace : CorrelateTrace) : DateTime := trace.started + NORMAL_TIMEOUT

variable (http : HttpCrate) (params : CorrelateParams) (trace : CorrelateTrace)

/-- The rounds that `correlate` makes of the trace, each with the anchor of the drain
as it finds it. -/
def rounds : List (Option DateTime × TimedCycle) :=
  Tape.rounds (fun s c => correlateRound http params trace.normalDeadline s c.toCorrelateCycle) none
    trace.cycles

def effectiveDeadline (r : Option DateTime × TimedCycle) : DateTime :=
  computeEffectiveDeadline trace.normalDeadline r.1 r.2.toCorrelateCycle

def Scanning (r : Option DateTime × TimedCycle) : Prop := r.2.now < trace.effectiveDeadline r

/-- Where the first round that finds the token cancelled sees it. -/
def firstObserved (cycles : List TimedCycle) : Option DateTime :=
  cycles.findSome? fun c => if c.cancelled then some c.onset else none

def drainAnchor : Option DateTime := firstObserved ((trace.rounds http params).map Prod.snd)

def bound : DateTime :=
  match trace.drainAnchor http params with
  | none => trace.normalDeadline
  | some anchor => min trace.normalDeadline (anchor + DRAIN_TIMEOUT)

structure KeepsDeadline : Prop where
  scans : ∀ r ∈ trace.rounds http params, trace.Scanning r → r.2.now < trace.bound http params
  anchored : ∀ r ∈ trace.rounds http params, r.2.cancelled = true →
    r.2.drainStart r.1 = trace.drainAnchor http params
  ends : ∀ pre r post, trace.rounds http params = pre ++ r :: post →
    trace.bound http params ≤ r.2.now → post = [] ∧ ∃ d,
      correlateRound http params trace.normalDeadline r.1 r.2.toCorrelateCycle =
        .inl (.error (.timeout params.repo params.workflow params.gcitRunId d))
  sleeps : ∀ r ∈ trace.rounds http params,
    r.2.sleepEnd (trace.effectiveDeadline r) ≤ max r.2.sleepFrom (trace.effectiveDeadline r)

variable {http params trace}

theorem foldl_drainStart (cs : List TimedCycle) (s : Option DateTime) :
    (cs.map TimedCycle.toCorrelateCycle).foldl CorrelateCycle.drainStart s =
      s.or (firstObserved cs) := by
  induction cs generalizing s with
  | nil => simp [firstObserved]
  | cons c cs ih =>
    rw [List.map_cons, List.foldl_cons, ih, CorrelateCycle.drainStart]
    cases hc : c.cancelled with
    | false => simp [firstObserved, hc]
    | true => cases s <;> simp [firstObserved, hc]

theorem firstObserved_append (cs ds : List TimedCycle) :
    firstObserved (cs ++ ds) = (firstObserved cs).or (firstObserved ds) := List.findSome?_append

theorem firstObserved_eq_none {cs : List TimedCycle} (h : ∀ c ∈ cs, c.cancelled = false) :
    firstObserved cs = none := by
  refine List.findSome?_eq_none_iff.mpr fun c hc => ?_
  simp [h c hc]

theorem exists_of_firstObserved {cs : List TimedCycle} {anchor : DateTime}
    (h : firstObserved cs = some anchor) : ∃ c ∈ cs, c.onset = anchor := by
  obtain ⟨c, hc, honset⟩ := List.exists_of_findSome?_eq_some h
  split at honset
  · exact ⟨c, hc, Option.some.inj honset⟩
  · cases honset

theorem rounds_initial : (trace.rounds http params).map Prod.snd <+: trace.cycles := by
  rw [rounds, Tape.map_snd_rounds]
  exact Tape.played_prefix_tape _ _ _

section Round

variable {pre post : List (Option DateTime × TimedCycle)} {r q : Option DateTime × TimedCycle}

theorem anchor_of_split (h : trace.rounds http params = pre ++ r :: post) :
    r.1 = firstObserved (pre.map Prod.snd) := by
  obtain ⟨hgoes, -⟩ := Tape.rounds_split h
  rw [Tape.goesOn_map TimedCycle.toCorrelateCycle, goesOn_correlateRound] at hgoes
  rw [← hgoes.2.2, foldl_drainStart]
  rfl

theorem drainAnchor_of_split (h : trace.rounds http params = pre ++ r :: post) :
    trace.drainAnchor http params =
      (r.2.drainStart r.1).or (firstObserved (post.map Prod.snd)) := by
  have hstart : r.2.drainStart r.1 = r.1.or (firstObserved [r.2]) := foldl_drainStart [r.2] r.1
  rw [hstart, anchor_of_split h, drainAnchor, h, List.map_append, List.map_cons,
    firstObserved_append, ← List.singleton_append, firstObserved_append, Option.or_assoc]

theorem ordered_of_mem (h : r ∈ trace.rounds http params) : r.2.Ordered :=
  trace.ordered r.2 (rounds_initial.subset (List.mem_map_of_mem h))

theorem wokenAt_le (h : trace.rounds http params = pre ++ r :: post) (hq : q ∈ post) :
    r.2.wokenAt ≤ q.2.polledAt := by
  have hprefix : (trace.rounds http params).map Prod.snd <+: trace.cycles := rounds_initial
  have hpairs := trace.between.sublist hprefix.sublist
  rw [h, List.map_append, List.map_cons] at hpairs
  exact List.rel_of_pairwise_cons (List.pairwise_append.mp hpairs).2.1 (List.mem_map_of_mem hq)

theorem cancelled_iff (h : r ∈ trace.rounds http params) :
    r.2.cancelled = true ↔ trace.Fired r.2.polledAt :=
  trace.token r.2 (rounds_initial.subset (List.mem_map_of_mem h))

theorem Fired.later {now later : DateTime} (h : trace.Fired now) (hle : now ≤ later) :
    trace.Fired later := by
  obtain ⟨t, ht, hfired⟩ := h
  exact ⟨t, ht, Int.le_trans hfired hle⟩

theorem anchor_of_not_cancelled (h : trace.rounds http params = pre ++ r :: post)
    (hr : r.2.cancelled = false) : r.1 = none := by
  rw [anchor_of_split h]
  apply firstObserved_eq_none
  intro c hc
  obtain ⟨p, hp, rfl⟩ := List.mem_map.mp hc
  obtain ⟨before, after, rfl⟩ := List.append_of_mem hp
  have hsplit : trace.rounds http params = before ++ p :: (after ++ r :: post) := by simp [h]
  have hmem : p ∈ trace.rounds http params := hsplit ▸ List.mem_append_right _ List.mem_cons_self
  have hr' : r ∈ trace.rounds http params := h ▸ List.mem_append_right _ List.mem_cons_self
  have hle : p.2.wokenAt ≤ r.2.polledAt :=
    wokenAt_le hsplit (List.mem_append_right _ List.mem_cons_self)
  -- a token cancelled for the earlier round is cancelled for this one
  rw [← Bool.not_eq_true, cancelled_iff hmem]
  intro hfired
  have hlater := hfired.later (Int.le_trans (ordered_of_mem hmem).polledAt_le_wokenAt hle)
  rw [(cancelled_iff hr').mpr hlater] at hr
  cases hr

theorem lt_add_drain {now anchor : DateTime} (h : now ≤ anchor) : now < anchor + DRAIN_TIMEOUT := by
  have hpos : (0 : Int) < (DRAIN_TIMEOUT : Nat) := by decide
  exact Int.lt_of_le_of_lt h (Int.lt_add_of_pos_right anchor hpos)

theorem effectiveDeadline_le_iff (h : trace.rounds http params = pre ++ r :: post) :
    trace.effectiveDeadline r ≤ r.2.now ↔ trace.bound http params ≤ r.2.now := by
  rw [bound, drainAnchor_of_split h]
  cases hr : r.2.cancelled with
  | true =>
    have hstart : r.2.drainStart r.1 = some (r.1.getD r.2.onset) := if_pos hr
    rw [hstart, effectiveDeadline, computeEffectiveDeadline, if_pos hr]
    rfl
  | false =>
    have hstart : r.2.drainStart r.1 = r.1 := if_neg (by simp [hr])
    have hdeadline : trace.effectiveDeadline r = trace.normalDeadline := if_neg (by simp [hr])
    rw [hstart, anchor_of_not_cancelled h hr, Option.none_or, hdeadline]
    cases hlater : firstObserved (post.map Prod.snd) with
    | none => rfl
    | some anchor =>
      -- the drain starts after this round
      obtain ⟨c, hc, rfl⟩ := exists_of_firstObserved hlater
      obtain ⟨q, hq, rfl⟩ := List.mem_map.mp hc
      have hmem : r ∈ trace.rounds http params := h ▸ List.mem_append_right _ List.mem_cons_self
      have hmem' : q ∈ trace.rounds http params :=
        h ▸ List.mem_append_right _ (List.mem_cons_of_mem _ hq)
      have hle : r.2.now ≤ q.2.onset := Int.le_trans (ordered_of_mem hmem).now_le_wokenAt
        (Int.le_trans (wokenAt_le h hq) (ordered_of_mem hmem').polled)
      have hlt := lt_add_drain hle
      constructor
      · intro hlate
        exact Int.le_trans (Int.min_le_left _ _) hlate
      · intro hlate
        rcases min_le_iff.mp hlate with hlate | hlate
        · exact hlate
        · exact absurd hlate (Int.not_le.mpr hlt)

end Round

variable (http params trace) in
/-- For every clock, every instant of cancellation and every answer to the scans: no
scan starts at or after the bound, the anchor of the drain stays where cancellation
was first seen, and the first check past the bound ends the loop. -/
theorem keeps_deadline : trace.KeepsDeadline http params := by
  constructor
  · intro r hr hscan
    obtain ⟨pre, post, hsplit⟩ := List.append_of_mem hr
    exact Int.not_le.mp (mt (effectiveDeadline_le_iff hsplit).mpr (Int.not_le.mpr hscan))
  · intro r hr hcancelled
    obtain ⟨pre, post, hsplit⟩ := List.append_of_mem hr
    have hstart : r.2.drainStart r.1 = some (r.1.getD r.2.onset) := if_pos hcancelled
    rw [drainAnchor_of_split hsplit, hstart]
    rfl
  · intro pre r post hsplit hlate
    have hround : ∃ d, correlateRound http params trace.normalDeadline r.1 r.2.toCorrelateCycle =
        .inl (.error (.timeout params.repo params.workflow params.gcitRunId d)) :=
      ⟨_, if_pos ((effectiveDeadline_le_iff hsplit).mpr hlate)⟩
    refine ⟨?_, hround⟩
    by_contra hne
    obtain ⟨m, hm⟩ := (Tape.rounds_split hsplit).2 hne
    obtain ⟨d, hd⟩ := hround
    rw [hd] at hm
    cases hm
  · intro r _
    exact r.2.sleepEnd_le _

section Backoff

variable {pre post : List (Option DateTime × TimedCycle)} {r q : Option DateTime × TimedCycle}

end Backoff

end CorrelateTrace

end Gcit.Github
