import Gcit.Control.Client

/-! # The gate of reloads

All connections of the server share one gate. A reload that it lets through is handed over
once, by the connection it came on, and two of them are a window apart.
-/

namespace Gcit.Control

open Gcit Gcit.Github Gcit.Library

/-- How many of the requests are reloads that the handler was asked for. -/
def asked (log : List (Request × Outcome)) : Nat :=
  log.countP fun entry => match entry with
    | (.reload _, .returned _) => true
    | _ => false

namespace Exchange

/-- How often the handler was asked to reload. -/
def reloads (x : Exchange) : Nat := asked x.log + x.server.reloads.toNat

variable {crates : WireCrates} {x y : Exchange}

theorem reloads_stepClient {e : ClientEvent} (h : x.stepClient crates e = some y) :
    y.reloads = x.reloads := by
  have hsame : y.log = x.log ∧ y.server = x.server := by
    cases e with
    | send =>
      simp only [stepClient] at h
      split at h
      · split at h <;> cases h <;> exact ⟨rfl, rfl⟩
      · cases h
    | eof =>
      simp only [stepClient] at h
      split at h
      · split at h
        · obtain ⟨-, rfl⟩ := Transition.guard_eq_some.mp h
          exact ⟨rfl, rfl⟩
        · cases h
          exact ⟨rfl, rfl⟩
      · cases h
    | write | flushed | writeFails | read | take | timeout | close =>
      simp only [stepClient] at h
      split at h <;> cases h <;> exact ⟨rfl, rfl⟩
  rw [reloads, reloads, hsame.1, hsame.2]

theorem reloads_answer (crates : WireCrates) (x : Exchange) (response : Response) (last : Bool) :
    (x.answer crates response last).reloads = asked x.log ∧
      (x.answer crates response last).server.reloads = false := by
  unfold answer
  split <;> exact ⟨rfl, rfl⟩

theorem reloads_stepServer {e : ServerEvent} (h : x.stepServer crates e = some y) :
    y.reloads = x.reloads := by
  cases e with
  | read n =>
    simp only [stepServer] at h
    split at h
    · cases h
      rfl
    · cases h
  | result r =>
    simp only [stepServer] at h
    split at h
    · next request hhandling =>
      cases h
      rw [(reloads_answer ..).1, reloads, hhandling]
      cases request <;> simp [asked, ServerPc.reloads]
    · cases h
  | write n =>
    simp only [stepServer] at h
    split at h
    · next hanswering =>
      cases h
      rw [reloads, reloads, hanswering]
      rfl
    · cases h
  | flushed =>
    simp only [stepServer] at h
    split at h
    · next last hanswering =>
      cases h
      rw [reloads, reloads, hanswering]
      cases last <;> rfl
    · cases h
  | leave =>
    simp only [stepServer] at h
    split at h
    · next hreading =>
      cases h
      rw [reloads, reloads, hreading]
      rfl
    · next hanswering =>
      cases h
      rw [reloads, reloads, hanswering]
      rfl
    · cases h

/-- A reload is handed over only if the gate let it through. -/
theorem reloads_serverTake {allowed : Bool} (h : x.serverTake crates allowed = some y) :
    y.reloads = x.reloads + y.server.reloads.toNat ∧
      (y.server.reloads = true → allowed = true) := by
  have hanswer : ∀ {z : Exchange} {response : Response} {last : Bool}, asked z.log = x.reloads →
      y = z.answer crates response last → y.reloads = x.reloads + y.server.reloads.toNat ∧
        (y.server.reloads = true → allowed = true) := by
    rintro z response last hlog rfl
    obtain ⟨hreloads, hserver⟩ := reloads_answer crates z response last
    rw [hreloads, hserver, hlog]
    exact ⟨rfl, nofun⟩
  simp only [serverTake] at h
  split at h
  · next e hreading hdecode => exact hanswer (by rw [reloads, hreading]; rfl) (Option.some.inj h).symm
  · next body rest hreading hdecode =>
    have hlog : x.reloads = asked x.log := by
      rw [reloads, hreading]
      rfl
    split at h
    · refine hanswer ?_ (Option.some.inj h).symm
      exact hlog.symm
    · split at h
      · next hallowed =>
        cases h
        exact ⟨by rw [hlog]; rfl, fun _ => hallowed⟩
      · refine hanswer ?_ (Option.some.inj h).symm
        simp [hlog, asked]
    · next request hnot hparse =>
      cases h
      have hserver : (ServerPc.handling request).reloads = false := by
        cases request with
        | reload id => exact absurd rfl (hnot id)
        | trigger | status | version => rfl
      refine ⟨?_, fun htrue => ?_⟩
      · rw [hlog]
        rfl
      · rw [hserver] at htrue
        cases htrue
  · cases h

end Exchange

/-- How often connection `i` was let through. -/
def Server.passes (s : Server) (i : Nat) : Nat := s.accepted.countP (·.1 == i)

structure Gated (s : Server) : Prop where
  spaced : s.accepted.Pairwise fun a b => RELOAD_WINDOW ≤ b.2 - a.2
  latest : ∀ a ∈ s.accepted, ∃ now, s.lastReload = some now ∧ a.2 ≤ now
  reloads : ∀ i x, s.exchanges i = some x → x.reloads = s.passes i
  fresh : ∀ i, s.exchanges i = none → s.passes i = 0

section

variable {crates : WireCrates} {s t : Server}

/-- Connection `i` moved on, and only its own passes can have changed. -/
theorem gated_put {i : Nat} {y : Exchange} (h : Gated s)
    (hat : ∀ j, t.exchanges j = if j = i then some y else s.exchanges j)
    (hspaced : t.accepted.Pairwise fun a b => RELOAD_WINDOW ≤ b.2 - a.2)
    (hlatest : ∀ a ∈ t.accepted, ∃ now, t.lastReload = some now ∧ a.2 ≤ now)
    (hy : y.reloads = t.passes i) (hothers : ∀ j, j ≠ i → t.passes j = s.passes j) : Gated t where
  spaced := hspaced
  latest := hlatest
  reloads j z hj := by
    rw [hat] at hj
    split at hj
    · next heq =>
      cases hj
      rw [hy, heq]
    · next hne =>
      rw [hothers j hne]
      exact h.reloads j z hj
  fresh j hj := by
    rw [hat] at hj
    split at hj
    · cases hj
    · next hne =>
      rw [hothers j hne]
      exact h.fresh j hj

/-- The gate compares with the reload let through last, which is the latest. -/
theorem window_of_tryAcquire {now : Instant} (h : Gated s)
    (hallowed : tryAcquire s.lastReload now = true) :
    ∀ a ∈ s.accepted, RELOAD_WINDOW ≤ now - a.2 := by
  intro a ha
  obtain ⟨prev, hprev, hle⟩ := h.latest a ha
  rw [hprev] at hallowed
  have hwindow : RELOAD_WINDOW ≤ now - prev := by simpa [tryAcquire] using hallowed
  exact hwindow.trans (Nat.sub_le_sub_left hle now)

theorem gated_step {e : ServeEvent} (h : Gated s) (hstep : s.step crates e = some t) : Gated t := by
  obtain ⟨i, y, hput, hy⟩ := Server.step_cases hstep
  have hat : ∀ j, t.exchanges j = if j = i then some y else s.exchanges j := by
    intro j
    rw [hput, Server.put, Function.update_apply]
  have hkeep : t.accepted = s.accepted → t.lastReload = s.lastReload →
      y.reloads = s.passes i → Gated t := by
    intro haccepted hlast hy
    have hpasses : ∀ j, t.passes j = s.passes j := fun j => by simp only [Server.passes, haccepted]
    refine gated_put h hat (haccepted ▸ h.spaced) ?_ (hy.trans (hpasses i).symm)
      fun j _ => hpasses j
    rw [haccepted, hlast]
    exact h.latest
  rcases hy with ⟨hnone, ⟨peerUid, ourUid, rfl⟩, haccepted, hlast⟩ |
    ⟨x, hx, ⟨hmove, haccepted, hlast⟩ | ⟨now, htake, hgate⟩⟩
  · refine hkeep haccepted hlast ?_
    rw [h.fresh i hnone]
    unfold Exchange.accept
    split <;> rfl
  · refine hkeep haccepted hlast ?_
    rw [← h.reloads i x hx]
    rcases hmove with ⟨e, hmove⟩ | ⟨e, hmove⟩
    · exact Exchange.reloads_stepClient hmove
    · exact Exchange.reloads_stepServer hmove
  obtain ⟨hcount, hallowed⟩ := Exchange.reloads_serverTake htake
  rw [h.reloads i x hx] at hcount
  split at hgate
  · next hreloads =>
    obtain ⟨haccepted, hlast⟩ : t.accepted = s.accepted ++ [(i, now)] ∧ t.lastReload = some now :=
      Prod.ext_iff.mp hgate
    have hpasses : ∀ j, t.passes j = s.passes j + if j = i then 1 else 0 := by
      intro j
      simp only [Server.passes, haccepted, List.countP_append, List.countP_singleton]
      rcases eq_or_ne j i with rfl | hne
      · simp
      · simp [hne, hne.symm]
    have hlate := window_of_tryAcquire h (hallowed hreloads)
    refine gated_put h hat ?_ ?_ ?_ fun j hne => by rw [hpasses, if_neg hne, Nat.add_zero]
    · rw [haccepted, List.pairwise_append]
      refine ⟨h.spaced, List.pairwise_singleton _ _, fun a ha b hb => ?_⟩
      obtain rfl := List.mem_singleton.mp hb
      exact hlate a ha
    · intro a ha
      refine ⟨now, hlast, ?_⟩
      rw [haccepted] at ha
      rcases List.mem_append.mp ha with hold | hnew
      · have hwindow := hlate a hold
        have hpos : 0 < RELOAD_WINDOW := by decide
        exact Nat.le_of_lt (Nat.lt_of_sub_pos (hpos.trans_le hwindow))
      · obtain rfl := List.mem_singleton.mp hnew
        exact Nat.le_refl _
    · rw [hcount, hreloads, hpasses, if_pos rfl]
      rfl
  · next hreloads =>
    obtain ⟨haccepted, hlast⟩ : t.accepted = s.accepted ∧ t.lastReload = s.lastReload :=
      Prod.ext_iff.mp hgate
    refine hkeep haccepted hlast ?_
    rw [hcount, Bool.eq_false_iff.mpr hreloads]
    rfl

/-- Over all connections and all interleavings, reloads asked of the handler are a window
apart from one another, and each connection was let through exactly as often as it asked
the handler. -/
theorem reloads_spaced {as : List ServeEvent}
    (hrun : Transition.run (Server.step crates) .start as = some t) :
    t.accepted.Pairwise (fun a b => RELOAD_WINDOW ≤ b.2 - a.2) ∧
      ∀ i x, t.exchanges i = some x → x.reloads = t.passes i := by
  have hstart : Gated .start := by
    refine ⟨.nil, ?_, ?_, fun _ _ => rfl⟩ <;> simp [Server.start]
  have hgated : Gated t := Transition.invariant_run (fun _ _ _ h hs => gated_step h hs) hstart hrun
  exact ⟨hgated.spaced, hgated.reloads⟩

def twoReloads : List ServeEvent :=
  [.connect 0 7 7, .connect 1 7 7, .client 0 (.send (.reload (Uuid.repeated 1)) ""),
    .client 0 (.write 99), .client 1 (.send (.reload (Uuid.repeated 2)) ""), .client 1 (.write 99),
    .server 0 (.read 99), .server 1 (.read 99), .take 0 5, .take 1 2000000000]

theorem two_reloads_spaced : ∃ t x,
    Transition.run (Server.step plainCrates) .start twoReloads = some t ∧ t.exchanges 1 = some x ∧
    t.accepted = [(0, 5), (1, 2000000000)] ∧ RELOAD_WINDOW ≤ 2000000000 - 5 ∧
    x.reloads = t.passes 1 := by
  have hrun : ((Transition.run (Server.step plainCrates) .start twoReloads).map fun t =>
      (t.accepted, (t.exchanges 1).isSome)) = some ([(0, 5), (1, 2000000000)], true) := by
    decide +kernel
  obtain ⟨t, hrun, heq⟩ := Option.map_eq_some_iff.mp hrun
  obtain ⟨haccepted, hexchange⟩ := Prod.ext_iff.mp heq
  obtain ⟨x, hx⟩ := Option.isSome_iff_exists.mp hexchange
  obtain ⟨hspaced, hreloads⟩ := reloads_spaced hrun
  rw [show t.accepted = _ from haccepted] at hspaced
  exact ⟨t, x, hrun, hx, haccepted, by simpa using hspaced, hreloads 1 x hx⟩

end

end Gcit.Control
