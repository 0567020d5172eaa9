import Gcit.Supervisor.Lifetime

/-! # Whether a shutdown comes to an end

A connection that has handed a command to the supervisor waits for the reply, and the
shutdown waits for the connection. Nobody takes commands once the select loop is left,
so the shutdown ends exactly if no connection waits then.
-/

namespace Gcit.Lifetime

open Gcit Gcit.Library Gcit.Library.Channel Gcit.Writer

def ConnPc.waits (pc : ConnPc) : Prop := pc = .submitting ∨ pc = .asking

/-- Some connection waits for the supervisor. -/
def Process.Awaited (p : Process) : Prop :=
  ∃ (conn : Nat) (pc : ConnPc), p.conns[conn]? = some pc ∧ pc.waits

abbrev Process.Reaches : Process → Process → Prop := Transition.Reaches Process.step

/-- What the phases of the shutdown have waited for. -/
structure Phased (p : Process) : Prop where
  flows : p.pc = .awaitingControl ∨ p.pc = .joiningWriter ∨ p.pc = .returned → p.flows = 0
  control : p.pc = .joiningWriter ∨ p.pc = .returned →
    p.serving = false ∧ ∀ pc ∈ p.conns, pc = .closed

/-- Left the loop, and not yet past the connections. -/
def Process.Blocked (p : Process) : Prop :=
  (p.pc = .drainingFlows ∨ p.pc = .awaitingControl) ∧ p.Awaited

section

variable {p q : Process} {e : Event}

theorem awaited_setConn {conn : Nat} {pc pc' : ConnPc} (h : p.Awaited)
    (hconn : p.conns[conn]? = some pc) (hpc : pc.waits → pc'.waits) :
    (p.setConn conn pc').Awaited := by
  obtain ⟨i, pc₀, hi, hwaits⟩ := h
  have hlt : i < p.conns.length := (List.getElem?_eq_some_iff.mp hi).1
  rcases eq_or_ne conn i with rfl | hne
  · obtain rfl := Option.some.inj (hconn.symm.trans hi)
    exact ⟨conn, pc', List.getElem?_set_self hlt, hpc hwaits⟩
  · exact ⟨i, pc₀, (List.getElem?_set_ne hne).trans hi, hwaits⟩

/-- Nothing that happens after the loop serves a waiting connection. -/
theorem blocked_step (h : p.Blocked) (hstep : p.step e = some q) : q.Blocked := by
  obtain ⟨hpc, hawaited⟩ := h
  have hloop : p.pc ≠ .looping ∧ p.pc ≠ .booting ∧ p.pc ≠ .joiningWriter := by
    rcases hpc with hpc | hpc <;> simp [hpc]
  cases e with
  | spawnFlow =>
    obtain ⟨-, rfl⟩ := Transition.guard_eq_some.mp hstep
    exact ⟨hpc, hawaited⟩
  | flowEnds =>
    obtain ⟨-, rfl⟩ := Transition.guard_eq_some.mp hstep
    exact ⟨hpc, hawaited⟩
  | send u =>
    obtain ⟨-, hsend⟩ := Option.ite_none_right_eq_some.mp hstep
    obtain ⟨queue, -, rfl⟩ := Option.map_eq_some_iff.mp hsend
    exact ⟨hpc, hawaited⟩
  | serve => exact absurd (Transition.guard_eq_some.mp hstep).1.1 hloop.2.1
  | bootFails => exact absurd (Transition.guard_eq_some.mp hstep).1 hloop.2.1
  | ready => exact absurd (Transition.guard_eq_some.mp hstep).1.1 hloop.2.1
  | accept =>
    obtain ⟨-, rfl⟩ := Transition.guard_eq_some.mp hstep
    obtain ⟨i, pc, hi, hwaits⟩ := hawaited
    exact ⟨hpc, i, pc, (List.getElem?_append_left (List.getElem?_eq_some_iff.mp hi).1).trans hi,
      hwaits⟩
  | request conn isCommand =>
    obtain ⟨hconn, rfl⟩ := Transition.guard_eq_some.mp hstep
    exact ⟨hpc, awaited_setConn hawaited hconn fun hwaits => by simp [ConnPc.waits] at hwaits⟩
  | submit conn =>
    obtain ⟨hconn, hsend⟩ := Option.ite_none_right_eq_some.mp hstep
    obtain ⟨commands, -, rfl⟩ := Option.map_eq_some_iff.mp hsend
    have hasking : ConnPc.submitting.waits → ConnPc.asking.waits := fun _ => .inr rfl
    exact ⟨hpc, awaited_setConn hawaited hconn hasking⟩
  | respond conn =>
    obtain ⟨hconn, rfl⟩ := Transition.guard_eq_some.mp hstep
    exact ⟨hpc, awaited_setConn hawaited hconn fun hwaits => by simp [ConnPc.waits] at hwaits⟩
  | hangUp conn =>
    obtain ⟨hconn, rfl⟩ := Transition.guard_eq_some.mp hstep
    rcases hconn with hconn | hconn
    · exact ⟨hpc, awaited_setConn hawaited hconn fun hwaits => by simp [ConnPc.waits] at hwaits⟩
    · exact ⟨hpc, awaited_setConn hawaited hconn fun hwaits => by simp [ConnPc.waits] at hwaits⟩
  | stopServing =>
    obtain ⟨-, rfl⟩ := Transition.guard_eq_some.mp hstep
    exact ⟨hpc, hawaited⟩
  | take => exact absurd (Option.ite_none_right_eq_some.mp hstep).1 hloop.1
  | answer =>
    simp only [Process.step] at hstep
    split at hstep
    · next conn hhandling => rcases hpc with hpc | hpc <;> simp [hhandling] at hpc
    · cases hstep
  | signal => exact absurd (Transition.guard_eq_some.mp hstep).1 hloop.1
  | flowsJoined =>
    obtain ⟨-, rfl⟩ := Transition.guard_eq_some.mp hstep
    exact ⟨.inr rfl, hawaited⟩
  | controlJoined =>
    obtain ⟨⟨-, -, hclosed⟩, -⟩ := Transition.guard_eq_some.mp hstep
    obtain ⟨i, pc, hi, hwaits⟩ := hawaited
    obtain rfl := hclosed pc (List.mem_of_getElem? hi)
    simp [ConnPc.waits] at hwaits
  | write we =>
    obtain ⟨w, queue, lastWrite, -, rfl⟩ := stepWriter_frame hstep
    exact ⟨hpc, hawaited⟩
  | writerJoined => exact absurd (Transition.guard_eq_some.mp hstep).1.1 hloop.2.2

theorem phased_step (h : Phased p) (hstep : p.step e = some q) : Phased q := by
  have hopen : p.spawns = true →
      ¬(p.pc = .awaitingControl ∨ p.pc = .joiningWriter ∨ p.pc = .returned) := by
    rintro hspawns (hpc | hpc | hpc) <;> simp [Process.spawns, hpc] at hspawns
  have hconns : ∀ conn pc (commands : Mpsc Nat CONTROL_COMMAND_QUEUE),
      (∃ pc', p.conns[conn]? = some pc' ∧ pc' ≠ .closed) →
      Phased { p.setConn conn pc with commands := commands } := by
    rintro conn pc commands ⟨pc', hconn, hne⟩
    refine ⟨h.flows, fun hpc => ?_⟩
    exact absurd ((h.control hpc).2 pc' (List.mem_of_getElem? hconn)) hne
  cases e with
  | spawnFlow =>
    obtain ⟨hspawns, rfl⟩ := Transition.guard_eq_some.mp hstep
    exact ⟨fun hpc => absurd hpc (hopen hspawns), h.control⟩
  | flowEnds =>
    obtain ⟨-, rfl⟩ := Transition.guard_eq_some.mp hstep
    exact ⟨fun hpc => by simp [h.flows hpc], h.control⟩
  | send u =>
    obtain ⟨-, hsend⟩ := Option.ite_none_right_eq_some.mp hstep
    obtain ⟨queue, -, rfl⟩ := Option.map_eq_some_iff.mp hsend
    exact ⟨h.flows, h.control⟩
  | serve =>
    obtain ⟨⟨hpc, -⟩, rfl⟩ := Transition.guard_eq_some.mp hstep
    exact ⟨h.flows, fun hp => by simp [hpc] at hp⟩
  | bootFails =>
    obtain ⟨-, rfl⟩ := Transition.guard_eq_some.mp hstep
    exact ⟨by simp, by simp⟩
  | ready =>
    obtain ⟨-, rfl⟩ := Transition.guard_eq_some.mp hstep
    exact ⟨by simp, by simp⟩
  | accept =>
    obtain ⟨hserving, rfl⟩ := Transition.guard_eq_some.mp hstep
    refine ⟨h.flows, fun hpc => ?_⟩
    have hstopped := (h.control hpc).1
    rw [hserving] at hstopped
    cases hstopped
  | request conn isCommand =>
    obtain ⟨hconn, rfl⟩ := Transition.guard_eq_some.mp hstep
    exact hconns conn _ p.commands ⟨_, hconn, by simp⟩
  | submit conn =>
    obtain ⟨hconn, hsend⟩ := Option.ite_none_right_eq_some.mp hstep
    obtain ⟨commands, -, rfl⟩ := Option.map_eq_some_iff.mp hsend
    exact hconns conn _ commands ⟨_, hconn, by simp⟩
  | respond conn =>
    obtain ⟨hconn, rfl⟩ := Transition.guard_eq_some.mp hstep
    exact hconns conn _ p.commands ⟨_, hconn, by simp⟩
  | hangUp conn =>
    obtain ⟨hconn, rfl⟩ := Transition.guard_eq_some.mp hstep
    rcases hconn with hconn | hconn
    · exact hconns conn _ p.commands ⟨_, hconn, by simp⟩
    · exact hconns conn _ p.commands ⟨_, hconn, by simp⟩
  | stopServing =>
    obtain ⟨-, rfl⟩ := Transition.guard_eq_some.mp hstep
    exact ⟨h.flows, fun hpc => ⟨rfl, (h.control hpc).2⟩⟩
  | take =>
    obtain ⟨-, htake⟩ := Option.ite_none_right_eq_some.mp hstep
    obtain ⟨⟨conn, commands⟩, -, rfl⟩ := Option.map_eq_some_iff.mp htake
    exact ⟨by simp, by simp⟩
  | answer =>
    simp only [Process.step] at hstep
    split at hstep
    · cases hstep
      exact ⟨by simp, by simp⟩
    · cases hstep
  | signal =>
    obtain ⟨-, rfl⟩ := Transition.guard_eq_some.mp hstep
    exact ⟨by simp, by simp⟩
  | flowsJoined =>
    obtain ⟨⟨-, hflows⟩, rfl⟩ := Transition.guard_eq_some.mp hstep
    exact ⟨fun _ => hflows, by simp⟩
  | controlJoined =>
    obtain ⟨⟨hpc, hserving, hclosed⟩, rfl⟩ := Transition.guard_eq_some.mp hstep
    exact ⟨fun _ => h.flows (.inl hpc), fun _ => ⟨hserving, hclosed⟩⟩
  | write we =>
    obtain ⟨w, queue, lastWrite, -, rfl⟩ := stepWriter_frame hstep
    exact ⟨h.flows, h.control⟩
  | writerJoined =>
    obtain ⟨⟨hpc, -⟩, rfl⟩ := Transition.guard_eq_some.mp hstep
    exact ⟨fun _ => h.flows (.inr (.inl hpc)), fun _ => h.control (.inl hpc)⟩

/-! ## The writer can finish -/

/-- From the middle of a batch the writer comes back to its queue. -/
theorem reaches_recv (p : Process) (hpc : p.writer.pc = .apply ∨ p.writer.pc = .write ∨
      p.writer.pc = .publish) :
    ∃ w lastWrite, p.Reaches { p with writer := w, lastWrite := lastWrite } ∧ w.pc = .recv := by
  have hpublish : ∀ p : Process, p.writer.pc = .publish →
      ∃ w lastWrite, p.Reaches { p with writer := w, lastWrite := lastWrite } ∧ w.pc = .recv := by
    intro p hpc
    refine ⟨{ p.writer with mirror := p.writer.mirror.set p.writer.state, pc := .recv },
      p.lastWrite, .single (a := .write .publish) ?_, rfl⟩
    simp [Process.step, Process.stepWriter, runMirrored, hpc]
  have hwrite : ∀ p : Process, p.writer.pc = .write →
      ∃ w lastWrite, p.Reaches { p with writer := w, lastWrite := lastWrite } ∧ w.pc = .recv := by
    intro p hpc
    obtain ⟨w, lastWrite, hreach, hrecv⟩ := hpublish
      { p with
        writer := { p.writer with
          disk := atomicWriteJson p.writer.disk p.writer.state .ok
          dirty := false
          pc := .publish }
        lastWrite := some .ok } rfl
    refine ⟨w, lastWrite, .head (a := .write (.persist .ok)) ?_ hreach, hrecv⟩
    simp [Process.step, Process.stepWriter, runMirrored, hpc]
  rcases hpc with happly | hpc | hpc
  · induction hbuffer : p.writer.buffer generalizing p with
    | nil =>
      obtain ⟨w, lastWrite, hreach, hrecv⟩ := hwrite
        { p with writer := { p.writer with dirty := true, pc := .write } } rfl
      refine ⟨w, lastWrite, .head (a := .write .apply) ?_ hreach, hrecv⟩
      simp [Process.step, Process.stepWriter, runMirrored, happly, hbuffer]
    | cons u rest ih =>
      obtain ⟨w, lastWrite, hreach, hrecv⟩ := ih
        { p with writer := { p.writer with state := p.writer.state.apply u, buffer := rest } }
        happly rfl
      refine ⟨w, lastWrite, .head (a := .write .apply) ?_ hreach, hrecv⟩
      simp [Process.step, Process.stepWriter, runMirrored, happly, hbuffer]
  · exact hwrite p hpc
  · exact hpublish p hpc

theorem reaches_exited_of_exiting (p : Process) (hpc : Exiting p.writer.pc) :
    ∃ w lastWrite, p.Reaches { p with writer := w, lastWrite := lastWrite } ∧ w.pc = .exited := by
  have hpublish : ∀ p : Process, p.writer.pc = .finalPublish →
      ∃ w lastWrite, p.Reaches { p with writer := w, lastWrite := lastWrite } ∧ w.pc = .exited := by
    intro p hpc
    refine ⟨{ p.writer with mirror := p.writer.mirror.set p.writer.state, pc := .exited },
      p.lastWrite, .single (a := .write .publish) ?_, rfl⟩
    simp [Process.step, Process.stepWriter, runMirrored, hpc]
  rcases hpc with hpc | hpc | hpc
  · obtain ⟨w, lastWrite, hreach, hexited⟩ := hpublish
      { p with
        writer := { p.writer with
          disk := atomicWriteJson p.writer.disk p.writer.state .ok
          pc := .finalPublish }
        lastWrite := some .ok } rfl
    refine ⟨w, lastWrite, .head (a := .write (.persist .ok)) ?_ hreach, hexited⟩
    simp [Process.step, Process.stepWriter, runMirrored, hpc]
  · exact hpublish p hpc
  · exact ⟨p.writer, p.lastWrite, .refl p, hpc⟩

/-- Without senders the writer drains the queue, one batch after the other, and exits. -/
theorem reaches_exited (p : Process) (hdisconnected : p.Disconnected)
    (hpc : ¬Exiting p.writer.pc) :
    ∃ w queue lastWrite,
      p.Reaches { p with writer := w, stateQueue := queue, lastWrite := lastWrite } ∧
        w.pc = .exited := by
  have hrecv : ∀ p : Process, p.Disconnected → p.writer.pc = .recv → ∃ w queue lastWrite,
      p.Reaches { p with writer := w, stateQueue := queue, lastWrite := lastWrite } ∧
        w.pc = .exited := by
    intro p hdisconnected hpc
    induction hlength : p.stateQueue.queue.length generalizing p with
    | zero =>
      have hempty : p.stateQueue.queue = [] := List.eq_nil_of_length_eq_zero hlength
      obtain ⟨w, lastWrite, hreach, hexited⟩ := reaches_exited_of_exiting
        { p with writer := { p.writer with pc := if p.writer.dirty then .finalWrite else .exited } }
        (by cases hdirty : p.writer.dirty <;> simp [Exiting])
      refine ⟨w, p.stateQueue, lastWrite, .head (a := .write .closed) ?_ hreach, hexited⟩
      simp [Process.step, Process.stepWriter, runMirrored, hpc, hempty, hdisconnected]
    | succ n ih =>
      have hreceive : p.step (.write (.receive (p.stateQueue.takeMany 1).1)) = some
          { p with
            writer := { p.writer with buffer := (p.stateQueue.takeMany 1).1, pc := .apply }
            stateQueue := (p.stateQueue.takeMany 1).2 } := by
        have hone : (p.stateQueue.takeMany 1).1.length = 1 := by
          simp [Mpsc.takeMany, hlength]
        simp [Process.step, Process.stepWriter, runMirrored, hpc, hone, BATCH_LIMIT]
      obtain ⟨w, lastWrite, hbatch, hw⟩ := reaches_recv
        { p with
          writer := { p.writer with buffer := (p.stateQueue.takeMany 1).1, pc := .apply }
          stateQueue := (p.stateQueue.takeMany 1).2 } (.inl rfl)
      obtain ⟨w', queue, lastWrite', hrest, hexited⟩ := ih
        { p with writer := w, stateQueue := (p.stateQueue.takeMany 1).2, lastWrite := lastWrite }
        hdisconnected hw (by simp [Mpsc.takeMany, hlength])
      exact ⟨w', queue, lastWrite', .head hreceive (hbatch.trans hrest), hexited⟩
  cases hw : p.writer.pc with
  | recv => exact hrecv p hdisconnected hw
  | apply | write | publish =>
    obtain ⟨w, lastWrite, hbatch, hw⟩ := reaches_recv p (by simp [hw])
    obtain ⟨w', queue, lastWrite', hrest, hexited⟩ := hrecv
      { p with writer := w, lastWrite := lastWrite } hdisconnected hw
    exact ⟨w', queue, lastWrite', hbatch.trans hrest, hexited⟩
  | finalWrite | finalPublish | exited => exact absurd (by simp [Exiting, hw]) hpc

/-! ## The phases before -/

theorem reaches_no_flows (p : Process) : p.Reaches { p with flows := 0 } := by
  induction hflows : p.flows generalizing p with
  | zero =>
    have hsame : { p with flows := 0 } = p := by rw [← hflows]
    rw [hsame]
    exact .refl p
  | succ n ih =>
    refine .head (a := .flowEnds) (t := { p with flows := n }) ?_ (ih { p with flows := n } rfl)
    simp [Process.step, hflows]

/-- Connections that do not wait can all be closed. -/
theorem reaches_closed (p : Process) (h : ¬p.Awaited) :
    ∃ conns, p.Reaches { p with conns := conns } ∧ ∀ pc ∈ conns, pc = .closed := by
  have hrest : ∀ (rest done : List ConnPc) (p : Process), p.conns = done ++ rest →
      (∀ pc ∈ done, pc = .closed) → (∀ pc ∈ rest, ¬pc.waits) →
      ∃ conns, p.Reaches { p with conns := conns } ∧ ∀ pc ∈ conns, pc = .closed := by
    intro rest
    induction rest with
    | nil =>
      intro done p hconns hdone _
      exact ⟨p.conns, .refl p, by rwa [hconns, List.append_nil]⟩
    | cons pc rest ih =>
      intro done p hconns hdone hwaits
      obtain ⟨hpc, hrest⟩ := List.forall_mem_cons.mp hwaits
      have hdone' : ∀ pc ∈ done ++ [ConnPc.closed], pc = .closed := by
        rw [List.forall_mem_append]
        exact ⟨hdone, by simp⟩
      rcases eq_or_ne pc .closed with rfl | hne
      · exact ih (done ++ [.closed]) p (by simp [hconns]) hdone' hrest
      · have hconn : p.conns[done.length]? = some pc := by simp [hconns]
        have hopen : pc = .reading ∨ pc = .sending := by
          cases pc with
          | reading => exact .inl rfl
          | sending => exact .inr rfl
          | submitting => exact absurd (.inl rfl) hpc
          | asking => exact absurd (.inr rfl) hpc
          | closed => exact absurd rfl hne
        have hstep : p.step (.hangUp done.length) = some (p.setConn done.length .closed) := by
          refine if_pos ?_
          rw [hconn, Option.some_inj, Option.some_inj]
          exact hopen
        have hset : (p.setConn done.length .closed).conns = (done ++ [.closed]) ++ rest := by
          simp [Process.setConn, hconns]
        obtain ⟨conns, hreach, hclosed⟩ := ih (done ++ [.closed]) (p.setConn done.length .closed)
          hset hdone' hrest
        exact ⟨conns, .head hstep hreach, hclosed⟩
  apply hrest p.conns [] p rfl (by simp)
  intro pc hmem hwaits
  obtain ⟨conn, hconn⟩ := List.mem_iff_getElem?.mp hmem
  exact h ⟨conn, pc, hconn, hwaits⟩

theorem reaches_joining (p : Process) (h : ¬p.Awaited) (hphased : Phased p)
    (hpc : p.pc = .drainingFlows ∨ p.pc = .awaitingControl) :
    ∃ conns, p.Reaches { p with
      pc := .joiningWriter, flows := 0, serving := false, conns := conns } := by
  have hcontrol : ∀ p : Process, ¬p.Awaited → p.flows = 0 → p.pc = .awaitingControl →
      ∃ conns, p.Reaches { p with
        pc := .joiningWriter, flows := 0, serving := false, conns := conns } := by
    intro p h hflows hpc
    have hstop : p.Reaches { p with serving := false } := by
      cases hserving : p.serving with
      | false =>
        have hsame : { p with serving := false } = p := by rw [← hserving]
        rw [hsame]
        exact .refl p
      | true =>
        refine .single (a := .stopServing) ?_
        simp [Process.step, Process.stopping, hpc, hserving]
    obtain ⟨conns, hreach, hclosed⟩ := reaches_closed { p with serving := false } h
    refine ⟨conns, (hstop.trans hreach).trans (.single (a := .controlJoined) ?_)⟩
    rw [← hflows]
    exact if_pos ⟨hpc, rfl, hclosed⟩
  rcases hpc with hpc | hpc
  · have hjoin : p.Reaches { p with pc := .awaitingControl, flows := 0 } := by
      refine (reaches_no_flows p).trans (.single (a := .flowsJoined) ?_)
      simp [Process.step, hpc]
    obtain ⟨conns, hreach⟩ := hcontrol { p with pc := .awaitingControl, flows := 0 } h rfl rfl
    exact ⟨conns, hjoin.trans hreach⟩
  · exact hcontrol p h (hphased.flows (.inl hpc)) hpc

theorem reaches_returned (p : Process) (hpc : p.pc = .joiningWriter) (hflows : p.flows = 0) :
    ∃ q, p.Reaches q ∧ q.pc = .returned := by
  have hdisconnected : p.Disconnected := ⟨by simp [Process.mainSends, hpc], hflows⟩
  have hexited : ∃ w queue lastWrite,
      p.Reaches { p with writer := w, stateQueue := queue, lastWrite := lastWrite } ∧
        w.pc = .exited := by
    by_cases hexiting : Exiting p.writer.pc
    · obtain ⟨w, lastWrite, hreach, hw⟩ := reaches_exited_of_exiting p hexiting
      exact ⟨w, p.stateQueue, lastWrite, hreach, hw⟩
    · exact reaches_exited p hdisconnected hexiting
  obtain ⟨w, queue, lastWrite, hreach, hw⟩ := hexited
  refine ⟨{ p with
    pc := .returned, writer := w, stateQueue := queue, lastWrite := lastWrite },
    hreach.trans (.single (a := .writerJoined) ?_), rfl⟩
  simp [Process.step, hpc, hw]

theorem phased_start {disk : Option State} (h : Process.start disk = some p) : Phased p := by
  obtain ⟨w, -, rfl⟩ := Option.map_eq_some_iff.mp h
  exact ⟨by simp, by simp⟩

/-- Wherever a daemon is in its shutdown, it can come to the end, with the writer joined,
exactly if no connection waits for the supervisor; with one that does, no run ends. -/
theorem shutdown_ends_iff {disk : Option State} {p₀ : Process} {as : List Event}
    (hstart : Process.start disk = some p₀) (hrun : Transition.run Process.step p₀ as = some p)
    (hstopping : p.stopping = true) :
    (∃ bs q, Transition.run Process.step p bs = some q ∧ q.pc = .returned) ↔ ¬p.Awaited := by
  have hphased : Phased p :=
    Transition.invariant_run (fun _ _ _ h hs => phased_step h hs) (phased_start hstart) hrun
  have hpc : p.pc = .drainingFlows ∨ p.pc = .awaitingControl ∨ p.pc = .joiningWriter ∨
      p.pc = .returned := by
    unfold Process.stopping at hstopping
    cases hpc : p.pc <;> simp [hpc] at hstopping ⊢
  constructor
  · rintro ⟨bs, q, hlater, hreturned⟩ hawaited
    have hblocked : p.Blocked := by
      rcases hpc with hpc | hpc | hpc | hpc
      · exact ⟨.inl hpc, hawaited⟩
      · exact ⟨.inr hpc, hawaited⟩
      all_goals
        obtain ⟨i, pc, hi, hwaits⟩ := hawaited
        obtain rfl := (hphased.control (by simp [hpc])).2 pc (List.mem_of_getElem? hi)
        simp [ConnPc.waits] at hwaits
    have hstill : q.Blocked :=
      Transition.invariant_run (fun _ _ _ h hs => blocked_step h hs) hblocked hlater
    rcases hstill.1 with hq | hq <;> simp [hreturned] at hq
  · intro hawaited
    have hend : ∃ q, p.Reaches q ∧ q.pc = .returned := by
      rcases hpc with hpc | hpc | hpc | hpc
      · obtain ⟨conns, hreach⟩ := reaches_joining p hawaited hphased (.inl hpc)
        obtain ⟨q, hlater, hq⟩ := reaches_returned
          { p with pc := .joiningWriter, flows := 0, serving := false, conns := conns } rfl rfl
        exact ⟨q, hreach.trans hlater, hq⟩
      · obtain ⟨conns, hreach⟩ := reaches_joining p hawaited hphased (.inr hpc)
        obtain ⟨q, hlater, hq⟩ := reaches_returned
          { p with pc := .joiningWriter, flows := 0, serving := false, conns := conns } rfl rfl
        exact ⟨q, hreach.trans hlater, hq⟩
      · exact reaches_returned p hpc (hphased.flows (.inr (.inl hpc)))
      · exact ⟨p, .refl p, hpc⟩
    obtain ⟨q, ⟨bs, hbs⟩, hq⟩ := hend
    exact ⟨bs, q, hbs, hq⟩

/-- A command handed over and not yet taken when the signal comes. -/
theorem shutdown_waits_forever : ∃ p₀ p, Process.start none = some p₀ ∧
    Transition.run Process.step p₀
      [.serve, .ready, .accept, .request 0 true, .submit 0, .signal] = some p ∧
    ¬∃ bs q, Transition.run Process.step p bs = some q ∧ q.pc = .returned := by
  obtain ⟨p₀, hstart⟩ : ∃ p₀, Process.start none = some p₀ := ⟨_, rfl⟩
  obtain ⟨p, hrun, hstopping, hconns⟩ : ∃ p, Transition.run Process.step p₀
      [.serve, .ready, .accept, .request 0 true, .submit 0, .signal] = some p ∧
      p.stopping = true ∧ p.conns = [.asking] := by
    cases hstart
    exact ⟨_, rfl, rfl, rfl⟩
  refine ⟨p₀, p, hstart, hrun, ?_⟩
  rw [shutdown_ends_iff hstart hrun hstopping, not_not]
  exact ⟨0, .asking, by rw [hconns]; rfl, .inr rfl⟩

end

end Gcit.Lifetime
