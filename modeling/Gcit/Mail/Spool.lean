import Gcit.Library.Exclusive
import Gcit.Mail.Notifier

/-! # One spool and the calls that write to it

A call of the notifier is an asynchronous part, which waits for the lock and gives up on
a deadline or a cancellation, and a task of the blocking pool, which nothing stops once
it runs. Any number of calls, of one daemon after the other, share the spool with other
programs that take its lock. The 5 s of the deadline are left to the schedule, and the
name of the spool stays with one file.
-/

namespace Gcit.Mail

open Gcit Gcit.Git Gcit.Flow Gcit.Library Gcit.Library.Handlebars Gcit.Notify

/-- Where `write_with_lock` stands; in `writing` the guard is held and the phase signal is
out. -/
inductive TaskPc where
  | notSpawned
  | opening
  | locking
  | writing
  | closed (result : Joined)
  | killed
  deriving DecidableEq

/-- Where `on_run_complete` stands. One turn of the select looks for the phase signal
first; while it is `looking` it has found none. -/
inductive CallPc where
  | racing
  | looking
  | committed
  | phaseDropped
  | returned (outcome : Except NotifyError NotifyOutcome)
  | gone
  deriving DecidableEq

structure Call where
  path : String
  /-- What the task was spawned with. -/
  message : Option Message
  pc : CallPc
  task : TaskPc
  /-- The token of the flow has fired. -/
  isCancelled : Bool
  /-- The flock was taken, and then the signal sent. -/
  signalled : Bool
  written : List UInt8
  rest : List UInt8

inductive Holder where
  | task (call : Nat)
  | elsewhere
  deriving DecidableEq

structure SpoolFile where
  contents : List UInt8
  holder : Option Holder
  deriving DecidableEq

structure Spool where
  path : String
  file : SpoolFile
  calls : Nat → Option Call

/-- The steps of `write_with_lock`, each with the error it meets. A write takes some of
the bytes left. -/
inductive TaskAction where
  | openSpool (error : Option IoError)
  | lock (error : Option IoError)
  | write (n : Nat)
  | fail (e : IoError)
  | sync (error : Option IoError)
  /-- The runtime shuts down before the task has begun. -/
  | abort (joinErr : String)

inductive CallAction where
  | cancel
  | poll
  | elapse
  | giveUp
  | park
  | join

inductive SpoolAction where
  | begin (i : Nat) (n : LocalMailNotifier) (ctx : RunContext) (summary : RunReport)
      (isCancelled : Bool) (now : DateTime)
  | task (i : Nat) (a : TaskAction)
  | call (i : Nat) (a : CallAction)
  | lockElsewhere
  | unlockElsewhere
  /-- The daemon dies with everything it has under way. -/
  | crash

/-- The guard goes, and with it the flock. -/
def SpoolFile.unlocked (f : SpoolFile) : SpoolFile := { f with holder := none }

def failed (e : IoError) : TaskPc := .closed (.ok (.error (.io e)))

def syncResult : Option IoError → TaskPc
  | none => .closed (.ok (.ok ()))
  | some e => failed e

def Call.stepTask (i : Nat) (c : Call) (f : SpoolFile) : TaskAction → Option (Call × SpoolFile)
  | .openSpool none => if c.task = .opening then some ({ c with task := .locking }, f) else none
  | .openSpool (some e) => if c.task = .opening then some ({ c with task := failed e }, f) else none
  | .lock none =>
    if c.task = .locking ∧ f.holder = none then
      some ({ c with task := .writing, signalled := true }, { f with holder := some (.task i) })
    else none
  | .lock (some e) => if c.task = .locking then some ({ c with task := failed e }, f) else none
  | .write n =>
    if c.task = .writing ∧ 0 < n ∧ n ≤ c.rest.length then
      some ({ c with written := c.written ++ c.rest.take n, rest := c.rest.drop n },
        { f with contents := f.contents ++ c.rest.take n })
    else none
  | .fail e =>
    if c.task = .writing ∧ c.rest ≠ [] then some ({ c with task := failed e }, f.unlocked) else none
  | .sync error =>
    if c.task = .writing ∧ c.rest = [] then
      some ({ c with task := syncResult error }, f.unlocked)
    else none
  | .abort joinErr =>
    if c.task = .opening then some ({ c with task := .closed (.error joinErr) }, f) else none

/-- The receiver of the phase signal; `none` while the sender is there and silent. -/
def Call.phase (c : Call) : Option CallPc :=
  if c.signalled then some .committed
  else match c.task with
    | .closed _ => some .phaseDropped
    | _ => none

def cancelledError (path : String) : NotifyError :=
  .transient ("cancelled before lock acquired on " ++ path ++ "; the blocking task may still " ++
    "write if the lock becomes available before the deadline") none

def Call.joinOutcome (c : Call) (result : Joined) : Except NotifyError NotifyOutcome :=
  match c.pc, result with
  | .committed, .ok (.ok ()) => .ok (.sent ("file:" ++ c.path))
  | _, result => .error (classifyBlockingFailure c.path result)

def Call.stepCall (c : Call) : CallAction → Option Call
  | .cancel => some { c with isCancelled := true }
  | .poll =>
    if c.pc = .racing then some { c with pc := c.phase.getD .looking } else none
  | .elapse =>
    if c.pc = .looking then some { c with pc := .returned (.error lockTimeoutError) } else none
  | .giveUp =>
    if c.pc = .looking ∧ c.isCancelled = true then
      some { c with pc := .returned (.error (cancelledError c.path)) }
    else none
  | .park => if c.pc = .looking then some { c with pc := .racing } else none
  | .join =>
    if c.pc = .committed ∨ c.pc = .phaseDropped then
      match c.task with
      | .closed result => some { c with pc := .returned (c.joinOutcome result) }
      | _ => none
    else none

def Call.crashed (c : Call) : Call :=
  { c with
    pc := match c.pc with
      | .returned outcome => .returned outcome
      | _ => .gone
    task := match c.task with
      | .notSpawned => .notSpawned
      | .closed result => .closed result
      | _ => .killed }

def SpoolFile.crashed (f : SpoolFile) : SpoolFile :=
  { f with holder := match f.holder with
    | some .elsewhere => some .elsewhere
    | _ => none }

section Step

variable (hb : Registry) (rfc3339 : DateTime → String) (formats : DateFormats)

def Call.start (n : LocalMailNotifier) (ctx : RunContext) (summary : RunReport)
    (isCancelled : Bool) (now : DateTime) : Call :=
  match n.prepare hb rfc3339 ctx summary isCancelled now with
  | .error outcome =>
    ⟨n.spoolPath, none, .returned outcome, .notSpawned, isCancelled, false, [], []⟩
  | .ok m =>
    ⟨n.spoolPath, some m, .racing, .opening, isCancelled, false, [], messageBytes formats m⟩

def Spool.put (s : Spool) (i : Nat) (c : Call) : Nat → Option Call :=
  Function.update s.calls i (some c)

def Spool.step (s : Spool) : SpoolAction → Option Spool
  | .begin i n ctx summary isCancelled now =>
    if (s.calls i).isNone ∧ n.spoolPath = s.path then
      some { s with
        calls := s.put i (Call.start hb rfc3339 formats n ctx summary isCancelled now) }
    else none
  | .task i a => (s.calls i).bind fun c =>
      (c.stepTask i s.file a).map fun (c, f) => { s with file := f, calls := s.put i c }
  | .call i a => (s.calls i).bind fun c =>
      (c.stepCall a).map fun c => { s with calls := s.put i c }
  | .lockElsewhere =>
    if s.file.holder = none then
      some { s with file := { s.file with holder := some .elsewhere } }
    else none
  | .unlockElsewhere =>
    if s.file.holder = some .elsewhere then some { s with file := s.file.unlocked } else none
  | .crash =>
    some { s with file := s.file.crashed, calls := fun i => (s.calls i).map Call.crashed }

end Step

def Spool.initial (path : String) (contents : List UInt8) : Spool :=
  ⟨path, ⟨contents, none⟩, fun _ => none⟩

/-! ## What the steps of a task do -/

inductive TaskStep (i : Nat) (c : Call) (f : SpoolFile) :
    TaskAction → Call → SpoolFile → Prop where
  | quiet (a : TaskAction) (task : TaskPc) (h : c.task = .opening ∨ c.task = .locking)
      (htask : task = .locking ∨ ∃ r, task = .closed r ∧ r ≠ .ok (.ok ()))
      (ha : ∀ e, a ≠ .fail e) : TaskStep i c f a { c with task := task } f
  | lock (h : c.task = .locking) (hfree : f.holder = none) :
      TaskStep i c f (.lock none) { c with task := .writing, signalled := true }
        { f with holder := some (.task i) }
  | write (n : Nat) (h : c.task = .writing) (hpos : 0 < n) (hle : n ≤ c.rest.length) :
      TaskStep i c f (.write n)
        { c with written := c.written ++ c.rest.take n, rest := c.rest.drop n }
        { f with contents := f.contents ++ c.rest.take n }
  | finish (a : TaskAction) (r : Joined) (h : c.task = .writing)
      (hr : r = .ok (.ok ()) → c.rest = []) (ha : (∃ e, a = .fail e) ↔ c.rest ≠ []) :
      TaskStep i c f a { c with task := .closed r } f.unlocked

theorem failed_ne_ok (e : IoError) : ∃ r, failed e = .closed r ∧ r ≠ .ok (.ok ()) :=
  ⟨_, rfl, by simp⟩

theorem stepTask_cases {i : Nat} {c c' : Call} {f f' : SpoolFile} {a : TaskAction}
    (h : c.stepTask i f a = some (c', f')) : TaskStep i c f a c' f' := by
  cases a with
  | openSpool error =>
    cases error with
    | none =>
      obtain ⟨hopening, heq⟩ := Transition.guard_eq_some.mp h
      cases heq
      exact .quiet _ _ (.inl hopening) (.inl rfl) (by simp)
    | some e =>
      obtain ⟨hopening, heq⟩ := Transition.guard_eq_some.mp h
      cases heq
      exact .quiet _ _ (.inl hopening) (.inr (failed_ne_ok e)) (by simp)
  | lock error =>
    cases error with
    | none =>
      obtain ⟨⟨hlocking, hfree⟩, heq⟩ := Transition.guard_eq_some.mp h
      cases heq
      exact .lock hlocking hfree
    | some e =>
      obtain ⟨hlocking, heq⟩ := Transition.guard_eq_some.mp h
      cases heq
      exact .quiet _ _ (.inr hlocking) (.inr (failed_ne_ok e)) (by simp)
  | write n =>
    obtain ⟨⟨hwriting, hpos, hle⟩, heq⟩ := Transition.guard_eq_some.mp h
    cases heq
    exact .write n hwriting hpos hle
  | fail e =>
    obtain ⟨⟨hwriting, hrest⟩, heq⟩ := Transition.guard_eq_some.mp h
    cases heq
    exact .finish _ _ hwriting (by simp) (iff_of_true ⟨e, rfl⟩ hrest)
  | sync error =>
    obtain ⟨⟨hwriting, hrest⟩, heq⟩ := Transition.guard_eq_some.mp h
    cases heq
    have hfail : (∃ e, TaskAction.sync error = .fail e) ↔ c.rest ≠ [] := by simp [hrest]
    cases error with
    | none => exact .finish _ _ hwriting (fun _ => hrest) hfail
    | some e => exact .finish _ _ hwriting (fun _ => hrest) hfail
  | abort joinErr =>
    obtain ⟨hopening, heq⟩ := Transition.guard_eq_some.mp h
    cases heq
    exact .quiet _ _ (.inl hopening) (.inr ⟨_, rfl, by simp⟩) (by simp)

/-! ## One call -/

/-- The two ways to return while the task goes its own way. -/
def Call.GaveUp (c : Call) (outcome : Except NotifyError NotifyOutcome) : Prop :=
  outcome = .error lockTimeoutError ∨ outcome = .error (cancelledError c.path)

/-- What an outcome says about the task. -/
inductive Call.Ending (c : Call) (outcome : Except NotifyError NotifyOutcome) : Prop where
  | unspawned (h : c.task = .notSpawned) (hout : ∀ receipt, outcome ≠ .ok (.sent receipt))
  | sent (h : c.task = .closed (.ok (.ok ())))
      (hout : outcome = .ok (.sent ("file:" ++ c.path)))
  | failed (r : Joined) (h : c.task = .closed r) (hr : r ≠ .ok (.ok ()))
      (hout : outcome = .error (classifyBlockingFailure c.path r))
  | gaveUp (h : c.GaveUp outcome) (htask : c.task ≠ .notSpawned)

/-- What a place in the notifier says about the task. -/
inductive Call.Justified (c : Call) : CallPc → Prop where
  | racing (h : c.task ≠ .notSpawned) : c.Justified .racing
  | looking (h : c.task ≠ .notSpawned) : c.Justified .looking
  | committed (h : c.signalled = true) : c.Justified .committed
  | phaseDropped (r : Joined) (h : c.task = .closed r) (hsignalled : c.signalled = false) :
      c.Justified .phaseDropped
  | returned (o : Except NotifyError NotifyOutcome) (h : c.Ending o) : c.Justified (.returned o)
  | gone : c.Justified .gone

structure Call.Sound (formats : DateFormats) (c : Call) : Prop where
  unsignalled : c.signalled = false → c.written = [] ∧ c.task ≠ .writing
  signalled : c.signalled = true → c.task ≠ .notSpawned ∧ c.task ≠ .opening ∧ c.task ≠ .locking
  succeeded : c.task = .closed (.ok (.ok ())) → c.rest = [] ∧ c.signalled = true
  message : ∀ m, c.message = some m → c.written ++ c.rest = messageBytes formats m
  spawned : c.task ≠ .notSpawned → ∃ m, c.message = some m
  pc : c.Justified c.pc

/-- A turn of the notifier changes nothing of its task. -/
theorem stepCall_frame {c c' : Call} {a : CallAction} (h : c.stepCall a = some c') :
    ∃ pc isCancelled, c' = { c with pc := pc, isCancelled := isCancelled } := by
  cases a with
  | cancel => exact ⟨c.pc, true, (Option.some.inj h).symm⟩
  | poll => exact ⟨_, c.isCancelled, (Transition.guard_eq_some.mp h).2.symm⟩
  | elapse => exact ⟨_, c.isCancelled, (Transition.guard_eq_some.mp h).2.symm⟩
  | giveUp => exact ⟨_, c.isCancelled, (Transition.guard_eq_some.mp h).2.symm⟩
  | park => exact ⟨_, c.isCancelled, (Transition.guard_eq_some.mp h).2.symm⟩
  | join =>
    simp only [Call.stepCall] at h
    split at h
    · split at h
      · exact ⟨_, c.isCancelled, (Option.some.inj h).symm⟩
      · cases h
    · cases h

section

variable {formats : DateFormats} {c c' : Call}

theorem Call.Ending.frame {o : Except NotifyError NotifyOutcome} (h : c.Ending o) (pc : CallPc)
    (isCancelled : Bool) : { c with pc := pc, isCancelled := isCancelled : Call }.Ending o := by
  cases h with
  | unspawned htask hout => exact .unspawned htask hout
  | sent htask hout => exact .sent htask hout
  | failed r htask hr hout => exact .failed r htask hr hout
  | gaveUp hout htask => exact .gaveUp hout htask

theorem Call.Sound.turn {pc : CallPc} (h : c.Sound formats) (hpc : c.Justified pc)
    (isCancelled : Bool) :
    { c with pc := pc, isCancelled := isCancelled : Call }.Sound formats := by
  refine ⟨h.unsignalled, h.signalled, h.succeeded, h.message, h.spawned, ?_⟩
  cases hpc with
  | racing htask => exact .racing htask
  | looking htask => exact .looking htask
  | committed hsignalled => exact .committed hsignalled
  | phaseDropped r htask hsignalled => exact .phaseDropped r htask hsignalled
  | returned o ho => exact .returned o (ho.frame _ isCancelled)
  | gone => exact .gone

theorem justified_phase (htask : c.task ≠ .notSpawned) :
    c.Justified (c.phase.getD .looking) := by
  unfold Call.phase
  split
  · next hsignalled => exact .committed hsignalled
  · next hsignalled =>
    split
    · next r hr => exact .phaseDropped r hr (Bool.eq_false_iff.mpr hsignalled)
    · exact .looking htask

theorem Call.Sound.joined {r : Joined} (h : c.Sound formats) (hr : c.task = .closed r)
    (hpc : c.pc = .committed ∨ c.pc = .phaseDropped) : c.Ending (c.joinOutcome r) := by
  rcases eq_or_ne r (.ok (.ok ())) with rfl | hne
  · have hsignalled : c.signalled = true := (h.succeeded hr).2
    have hcommitted : c.pc = .committed := by
      refine hpc.resolve_right fun hdropped => ?_
      have hpc := h.pc
      rw [hdropped] at hpc
      cases hpc with
      | phaseDropped _ _ hunsignalled =>
        rw [hunsignalled] at hsignalled
        cases hsignalled
    exact .sent hr (by simp [Call.joinOutcome, hcommitted])
  · refine .failed r hr hne ?_
    unfold Call.joinOutcome
    split
    · exact absurd rfl hne
    · rfl

theorem Call.Sound.stepCall {a : CallAction} (h : c.Sound formats)
    (hstep : c.stepCall a = some c') : c'.Sound formats := by
  have hlooking : c.pc = .looking → c.task ≠ .notSpawned := by
    intro hpc
    have hjustified := h.pc
    rw [hpc] at hjustified
    cases hjustified with
    | looking htask => exact htask
  cases a with
  | cancel =>
    cases hstep
    exact h.turn h.pc true
  | poll =>
    obtain ⟨hpc, rfl⟩ := Transition.guard_eq_some.mp hstep
    have hjustified := h.pc
    rw [hpc] at hjustified
    cases hjustified with
    | racing htask => exact h.turn (justified_phase htask) c.isCancelled
  | elapse =>
    obtain ⟨hpc, rfl⟩ := Transition.guard_eq_some.mp hstep
    exact h.turn (.returned _ (.gaveUp (.inl rfl) (hlooking hpc))) c.isCancelled
  | giveUp =>
    obtain ⟨⟨hpc, -⟩, rfl⟩ := Transition.guard_eq_some.mp hstep
    exact h.turn (.returned _ (.gaveUp (.inr rfl) (hlooking hpc))) c.isCancelled
  | park =>
    obtain ⟨hpc, rfl⟩ := Transition.guard_eq_some.mp hstep
    exact h.turn (.racing (hlooking hpc)) c.isCancelled
  | join =>
    simp only [Call.stepCall] at hstep
    split at hstep
    · next hpc =>
      split at hstep
      · next r hr =>
        cases hstep
        exact h.turn (.returned _ (h.joined hr hpc)) c.isCancelled
      · cases hstep
    · cases hstep

/-- While a task runs, what it does undoes no outcome. -/
theorem Call.Justified.task {pc : CallPc} (h : c.Justified pc)
    (hlive : c.task = .opening ∨ c.task = .locking ∨ c.task = .writing)
    (hpath : c'.path = c.path) (htask : c'.task ≠ .notSpawned)
    (hsignalled : c.signalled = true → c'.signalled = true) : c'.Justified pc := by
  cases h with
  | racing _ => exact .racing htask
  | looking _ => exact .looking htask
  | committed h => exact .committed (hsignalled h)
  | phaseDropped r h _ => simp [h] at hlive
  | returned o ho =>
    refine .returned o ?_
    cases ho with
    | unspawned h _ => simp [h] at hlive
    | sent h _ => simp [h] at hlive
    | failed r h _ _ => simp [h] at hlive
    | gaveUp h _ => exact .gaveUp (by rwa [Call.GaveUp, hpath]) htask
  | gone => exact .gone

theorem Call.Sound.signalled_of_writing (h : c.Sound formats) (hwriting : c.task = .writing) :
    c.signalled = true := by
  cases hsignalled : c.signalled with
  | true => rfl
  | false => exact absurd hwriting (h.unsignalled hsignalled).2

theorem Call.Sound.unsignalled_of_early (h : c.Sound formats)
    (hearly : c.task = .opening ∨ c.task = .locking) : c.signalled = false := by
  refine Bool.eq_false_iff.mpr fun hsignalled => ?_
  have hlate := h.signalled hsignalled
  exact hearly.elim hlate.2.1 hlate.2.2

theorem Call.Sound.stepTask {i : Nat} {f f' : SpoolFile} {a : TaskAction} (h : c.Sound formats)
    (hstep : TaskStep i c f a c' f') : c'.Sound formats := by
  have hbytes : ∀ m, c.message = some m → c.written ++ c.rest = messageBytes formats m := h.message
  cases hstep with
  | quiet _ task hearly htask ha =>
    have hunsignalled : c.signalled = false := h.unsignalled_of_early hearly
    have hlive : c.task = .opening ∨ c.task = .locking ∨ c.task = .writing :=
      hearly.imp_right .inl
    have hne : task ≠ .notSpawned ∧ task ≠ .writing ∧ task ≠ .closed (.ok (.ok ())) := by
      rcases htask with rfl | ⟨r, rfl, hr⟩
      · simp
      · simpa using hr
    refine ⟨fun _ => ⟨(h.unsignalled hunsignalled).1, hne.2.1⟩, ?_, ?_, hbytes, ?_, ?_⟩
    · intro hsignalled
      exact absurd hsignalled (Bool.eq_false_iff.mp hunsignalled)
    · intro hok
      exact absurd hok hne.2.2
    · exact fun _ => h.spawned (by rcases hearly with h | h <;> simp [h])
    · exact h.pc.task hlive rfl hne.1 id
  | lock hlocking hfree =>
    have hspawned : ∃ m, c.message = some m := h.spawned (by simp [hlocking])
    refine ⟨fun hfalse => ?_, fun _ => by simp, fun hok => ?_, hbytes, fun _ => hspawned, ?_⟩
    · cases hfalse
    · cases hok
    · exact h.pc.task (.inr (.inl hlocking)) rfl (by simp) fun _ => rfl
  | write n hwriting hpos hle =>
    have hsignalled : c.signalled = true := h.signalled_of_writing hwriting
    refine ⟨fun hfalse => ?_, h.signalled, fun hok => ?_, fun m hm => ?_, h.spawned, ?_⟩
    · rw [hsignalled] at hfalse
      cases hfalse
    · rw [hwriting] at hok
      cases hok
    · rw [List.append_assoc, List.take_append_drop]
      exact hbytes m hm
    · exact h.pc.task (.inr (.inr hwriting)) rfl (by simp [hwriting]) id
  | finish _ r hwriting hrest ha =>
    have hsignalled : c.signalled = true := h.signalled_of_writing hwriting
    have hspawned : ∃ m, c.message = some m := h.spawned (by simp [hwriting])
    refine ⟨fun hfalse => ?_, fun _ => by simp, ?_, hbytes, fun _ => hspawned, ?_⟩
    · rw [hsignalled] at hfalse
      cases hfalse
    · intro hok
      cases hok
      exact ⟨hrest rfl, hsignalled⟩
    · exact h.pc.task (.inr (.inr hwriting)) rfl (by simp) id

theorem Call.Sound.crashed (h : c.Sound formats) : c.crashed.Sound formats := by
  have htask : c.crashed.task = c.task ∨ c.crashed.task = .killed := by
    unfold Call.crashed
    cases htask : c.task <;> simp
  have hfixed : c.task = .notSpawned ∨ (∃ r, c.task = .closed r) → c.crashed.task = c.task := by
    rintro (h | ⟨r, h⟩) <;> simp [Call.crashed, h]
  refine ⟨fun hfalse => ?_, fun htrue => ?_, fun hok => ?_, h.message, fun hne => ?_, ?_⟩
  · refine ⟨(h.unsignalled hfalse).1, ?_⟩
    rcases htask with h' | h'
    · rw [h']
      exact (h.unsignalled hfalse).2
    · simp [h']
  · have hlate := h.signalled htrue
    rcases htask with h' | h'
    · rwa [h']
    · simp [h']
  · rcases htask with h' | h'
    · exact h.succeeded (h' ▸ hok)
    · simp [h'] at hok
  · refine h.spawned fun hns => hne ?_
    rw [hfixed (.inl hns), hns]
  · have hpc := h.pc
    unfold Call.crashed
    cases hreturned : c.pc with
    | returned o =>
      rw [hreturned] at hpc
      cases hpc with
      | returned _ ho =>
        refine .returned o ?_
        cases ho with
        | unspawned h hout => exact .unspawned (by simp [h]) hout
        | sent h hout => exact .sent (by simp [h]) hout
        | failed r h hr hout => exact .failed r (by simp [h]) hr hout
        | gaveUp h hns =>
          refine .gaveUp h ?_
          dsimp only
          split <;> simp_all
    | racing | looking | committed | phaseDropped | gone => exact .gone

end

/-! ## The spool and its ledger -/

abbrev Ledger := Exclusive.Locked Nat (List UInt8) (List UInt8)

/-- The ledger accounts for every byte of the spool, with one section for each call that
took the lock. -/
structure Spool.Explained (formats : DateFormats) (start : List UInt8) (s : Spool)
    (l : Ledger) : Prop where
  serial : Exclusive.Serial (· ++ ·) start l
  resource : s.file.contents = l.resource
  holder : ∀ i, s.file.holder = some (.task i) ↔ l.holder = some i
  writing : ∀ i, s.file.holder = some (.task i) ↔ ∃ c, s.calls i = some c ∧ c.task = .writing
  sections : ∀ i es, (i, es) ∈ l.sections →
    ∃ c, s.calls i = some c ∧ c.signalled = true ∧ es.flatten = c.written
  signalled : ∀ i c, s.calls i = some c → c.signalled = true → i ∈ l.sections.map Prod.fst
  nodup : (l.sections.map Prod.fst).Nodup
  sound : ∀ i c, s.calls i = some c → c.Sound formats

section

variable {formats : DateFormats} {start : List UInt8} {s : Spool} {l : Ledger}

theorem put_eq_some {i j : Nat} {c c' : Call} :
    s.put i c j = some c' ↔ i = j ∧ c = c' ∨ i ≠ j ∧ s.calls j = some c' := by
  rcases eq_or_ne j i with rfl | hne
  · simp [Spool.put]
  · simp [Spool.put, hne, hne.symm]

theorem explained_initial (path : String) (start : List UInt8) :
    (Spool.initial path start).Explained formats start (Exclusive.fresh start) := by
  constructor
  · exact Exclusive.serial_fresh _ start
  · rfl
  · simp [Spool.initial, Exclusive.fresh]
  · simp [Spool.initial]
  · simp [Exclusive.fresh]
  · simp [Spool.initial]
  · simp [Exclusive.fresh]
  · simp [Spool.initial]

/-- One call changes, and nothing of what it has to do with the file. -/
theorem Spool.Explained.put {i : Nat} {c c' : Call} (h : s.Explained formats start l)
    (hc : ∀ c₀, s.calls i = some c₀ → c₀ = c) (hfresh : s.calls i = none → c.signalled = false)
    (hwriting : c'.task = .writing ↔ c.task = .writing)
    (hnone : s.calls i = none → c.task ≠ .writing) (hsignalled : c'.signalled = c.signalled)
    (hwritten : c'.written = c.written) (hsound : c'.Sound formats) :
    { s with calls := s.put i c' }.Explained formats start l := by
  refine ⟨h.serial, h.resource, h.holder, fun j => ?_, fun j es hmem => ?_, fun j c₀ hj hsig => ?_,
    h.nodup, fun j c₀ hj => ?_⟩
  · rw [h.writing j]
    simp only [put_eq_some]
    constructor
    · rintro ⟨c₀, hj, htask⟩
      rcases eq_or_ne i j with rfl | hne
      · obtain rfl := hc c₀ hj
        exact ⟨c', .inl ⟨rfl, rfl⟩, hwriting.mpr htask⟩
      · exact ⟨c₀, .inr ⟨hne, hj⟩, htask⟩
    · rintro ⟨c₀, ⟨rfl, rfl⟩ | ⟨hne, hj⟩, htask⟩
      · cases hi : s.calls i with
        | none => exact absurd (hwriting.mp htask) (hnone hi)
        | some c₀ => exact ⟨c₀, rfl, hc c₀ hi ▸ hwriting.mp htask⟩
      · exact ⟨c₀, hj, htask⟩
  · obtain ⟨c₀, hj, hsig, hes⟩ := h.sections j es hmem
    rcases eq_or_ne i j with rfl | hne
    · obtain rfl := hc c₀ hj
      exact ⟨c', put_eq_some.mpr (.inl ⟨rfl, rfl⟩), hsignalled.trans hsig, hes.trans hwritten.symm⟩
    · exact ⟨c₀, put_eq_some.mpr (.inr ⟨hne, hj⟩), hsig, hes⟩
  · rcases put_eq_some.mp hj with ⟨rfl, rfl⟩ | ⟨-, hj⟩
    · cases hi : s.calls i with
      | none =>
        rw [hsignalled, hfresh hi] at hsig
        cases hsig
      | some c₀ => exact h.signalled i c₀ hi (hc c₀ hi ▸ hsignalled ▸ hsig)
    · exact h.signalled j c₀ hj hsig
  · rcases put_eq_some.mp hj with ⟨rfl, rfl⟩ | ⟨-, hj⟩
    · exact hsound
    · exact h.sound j c₀ hj

theorem Spool.Explained.call {i : Nat} {c : Call} (h : s.Explained formats start l)
    (hc : s.calls i = some c) (hwriting : c.task = .writing) : l.holder = some i :=
  (h.holder i).mp ((h.writing i).mpr ⟨c, hc, hwriting⟩)

theorem Spool.Explained.lock {i : Nat} {c : Call} (h : s.Explained formats start l)
    (hc : s.calls i = some c) (hlocking : c.task = .locking) (hfree : s.file.holder = none)
    (hsound : { c with task := .writing, signalled := true : Call }.Sound formats) :
    Spool.Explained formats start
      { s with
        file := { s.file with holder := some (.task i) }
        calls := s.put i { c with task := .writing, signalled := true } }
      { l with holder := some i, sections := l.sections ++ [(i, [])] } := by
  have hnone : l.holder = none := by
    refine Option.eq_none_iff_forall_ne_some.mpr fun j hj => ?_
    rw [← h.holder, hfree] at hj
    cases hj
  have hunsignalled : c.signalled = false :=
    (h.sound i c hc).unsignalled_of_early (.inr hlocking)
  have hnew : i ∉ l.sections.map Prod.fst := by
    intro hmem
    obtain ⟨⟨j, es⟩, hes, rfl⟩ := List.mem_map.mp hmem
    obtain ⟨c₀, hj, hsig, -⟩ := h.sections j es hes
    obtain rfl := Option.some.inj (hc.symm.trans hj)
    exact Bool.false_ne_true (hunsignalled.symm.trans hsig)
  have hacquire : Exclusive.step (· ++ ·) l (.acquire i) =
      some { l with holder := some i, sections := l.sections ++ [(i, [])] } := if_pos hnone
  refine ⟨h.serial.step hacquire, h.resource, fun j => ?_, fun j => ?_, fun j es hmem => ?_,
    fun j c₀ hj hsig => ?_, ?_, fun j c₀ hj => ?_⟩
  · simp
  · simp only [put_eq_some, Option.some.injEq, Holder.task.injEq]
    constructor
    · rintro rfl
      exact ⟨_, .inl ⟨rfl, rfl⟩, rfl⟩
    · rintro ⟨c₀, ⟨rfl, -⟩ | ⟨-, hj⟩, htask⟩
      · rfl
      · have hheld := (h.writing j).mpr ⟨c₀, hj, htask⟩
        rw [hfree] at hheld
        cases hheld
  · rcases List.mem_append.mp hmem with hold | hlast
    · obtain ⟨c₀, hj, hsig, hes⟩ := h.sections j es hold
      have hne : i ≠ j := by
        rintro rfl
        exact hnew (List.mem_map_of_mem hold)
      exact ⟨c₀, put_eq_some.mpr (.inr ⟨hne, hj⟩), hsig, hes⟩
    · cases List.mem_singleton.mp hlast
      refine ⟨_, put_eq_some.mpr (.inl ⟨rfl, rfl⟩), rfl, ?_⟩
      exact (((h.sound i c hc).unsignalled hunsignalled).1).symm
  · rw [List.map_append, List.mem_append]
    rcases put_eq_some.mp hj with ⟨rfl, rfl⟩ | ⟨-, hj⟩
    · exact .inr (by simp)
    · exact .inl (h.signalled j c₀ hj hsig)
  · rw [List.map_append, List.nodup_append]
    refine ⟨h.nodup, by simp, ?_⟩
    rintro j hj k hk rfl
    obtain rfl : j = i := by simpa using hk
    exact hnew hj
  · rcases put_eq_some.mp hj with ⟨rfl, rfl⟩ | ⟨-, hj⟩
    · exact hsound
    · exact h.sound j c₀ hj

theorem Spool.Explained.write {i : Nat} {c : Call} (h : s.Explained formats start l)
    (hc : s.calls i = some c) (hwriting : c.task = .writing) (n : Nat)
    (hsound : { c with written := c.written ++ c.rest.take n, rest := c.rest.drop n : Call }.Sound
      formats) :
    Spool.Explained formats start
      { s with
        file := { s.file with contents := s.file.contents ++ c.rest.take n }
        calls := s.put i { c with written := c.written ++ c.rest.take n, rest := c.rest.drop n } }
      { l with
        resource := l.resource ++ c.rest.take n
        sections := Exclusive.extend (c.rest.take n) l.sections } := by
  have hheld : l.holder = some i := h.call hc hwriting
  obtain ⟨before, es, hsections⟩ := h.serial.last i hheld
  have hnodup := h.nodup
  rw [hsections, List.map_append, List.nodup_append] at hnodup
  have hids : (Exclusive.extend (c.rest.take n) l.sections).map Prod.fst =
      l.sections.map Prod.fst := by
    rw [hsections, Exclusive.extend_concat, List.map_append, List.map_append]
    rfl
  have hperform : Exclusive.step (· ++ ·) l (.perform i (c.rest.take n)) =
      some { l with
        resource := l.resource ++ c.rest.take n
        sections := Exclusive.extend (c.rest.take n) l.sections } := if_pos hheld
  refine ⟨h.serial.step hperform, ?_, h.holder, fun j => ?_, fun j fs hmem => ?_,
    fun j c₀ hj hsig => ?_, ?_, fun j c₀ hj => ?_⟩
  · exact congrArg (· ++ c.rest.take n) h.resource
  · simp only [put_eq_some]
    rw [h.writing j]
    constructor
    · rintro ⟨c₀, hj, htask⟩
      rcases eq_or_ne i j with rfl | hne
      · exact ⟨_, .inl ⟨rfl, rfl⟩, hwriting⟩
      · exact ⟨c₀, .inr ⟨hne, hj⟩, htask⟩
    · rintro ⟨c₀, ⟨rfl, rfl⟩ | ⟨-, hj⟩, htask⟩
      · exact ⟨c, hc, hwriting⟩
      · exact ⟨c₀, hj, htask⟩
  · dsimp only at hmem
    rw [hsections, Exclusive.extend_concat] at hmem
    rcases List.mem_append.mp hmem with hold | hlast
    · have hne : i ≠ j := by
        rintro rfl
        exact hnodup.2.2 i (List.mem_map_of_mem hold) i (by simp) rfl
      have hmem : (j, fs) ∈ l.sections := by
        rw [hsections]
        exact List.mem_append_left _ hold
      obtain ⟨c₀, hj, hsig, hfs⟩ := h.sections j fs hmem
      exact ⟨c₀, put_eq_some.mpr (.inr ⟨hne, hj⟩), hsig, hfs⟩
    · cases List.mem_singleton.mp hlast
      obtain ⟨c₀, hj, hsig, hes⟩ := h.sections i es (by simp [hsections])
      obtain rfl := Option.some.inj (hc.symm.trans hj)
      refine ⟨_, put_eq_some.mpr (.inl ⟨rfl, rfl⟩), hsig, ?_⟩
      simp [hes]
  · dsimp only
    rw [hids]
    rcases put_eq_some.mp hj with ⟨rfl, rfl⟩ | ⟨-, hj⟩
    · exact h.signalled i c hc hsig
    · exact h.signalled j c₀ hj hsig
  · dsimp only
    rw [hids]
    exact h.nodup
  · rcases put_eq_some.mp hj with ⟨rfl, rfl⟩ | ⟨-, hj⟩
    · exact hsound
    · exact h.sound j c₀ hj

/-- The lock is given back, and the sections stay. -/
theorem Spool.Explained.released {t : Spool} (h : s.Explained formats start l)
    (hcontents : t.file.contents = s.file.contents)
    (hheld : ∀ i, t.file.holder ≠ some (.task i))
    (hcalls : ∀ i c, t.calls i = some c → ∃ c₀, s.calls i = some c₀ ∧
      c.signalled = c₀.signalled ∧ c.task ≠ .writing ∧ c.Sound formats)
    (hkept : ∀ i c₀, s.calls i = some c₀ → ∃ c, t.calls i = some c ∧
      c.signalled = c₀.signalled ∧ c.written = c₀.written) :
    t.Explained formats start { l with holder := none } := by
  refine ⟨⟨h.serial.resource, ?_⟩, hcontents.trans h.resource, ?_, ?_, ?_, ?_, h.nodup, ?_⟩
  · intro i hi
    cases hi
  · intro i
    constructor
    · intro hi
      exact absurd hi (hheld i)
    · intro hi
      cases hi
  · intro i
    refine iff_of_false (hheld i) ?_
    rintro ⟨c, hi, htask⟩
    obtain ⟨-, -, -, hne, -⟩ := hcalls i c hi
    exact hne htask
  · intro i es hmem
    obtain ⟨c₀, hi, hsig, hes⟩ := h.sections i es hmem
    obtain ⟨c, hi, hsame, hwritten⟩ := hkept i c₀ hi
    exact ⟨c, hi, hsame.trans hsig, hes.trans hwritten.symm⟩
  · intro i c hi hsig
    obtain ⟨c₀, hi, hsame, -⟩ := hcalls i c hi
    exact h.signalled i c₀ hi (hsame.symm.trans hsig)
  · intro i c hi
    obtain ⟨-, -, -, -, hsound⟩ := hcalls i c hi
    exact hsound

theorem Spool.Explained.finish {i : Nat} {c : Call} (h : s.Explained formats start l)
    (hc : s.calls i = some c) (hwriting : c.task = .writing) (r : Joined)
    (hsound : { c with task := .closed r : Call }.Sound formats) :
    Spool.Explained formats start
      { s with file := s.file.unlocked, calls := s.put i { c with task := .closed r } }
      { l with holder := none } := by
  refine h.released rfl (fun j hj => by cases hj) (fun j c₀ hj => ?_) fun j c₀ hj => ?_
  · rcases put_eq_some.mp hj with ⟨rfl, rfl⟩ | ⟨hne, hj⟩
    · exact ⟨c, hc, rfl, by simp, hsound⟩
    · refine ⟨c₀, hj, rfl, fun htask => hne ?_, h.sound j c₀ hj⟩
      exact Option.some.inj ((h.call hc hwriting).symm.trans (h.call hj htask))
  · rcases eq_or_ne i j with rfl | hne
    · obtain rfl := Option.some.inj (hc.symm.trans hj)
      exact ⟨_, put_eq_some.mpr (.inl ⟨rfl, rfl⟩), rfl, rfl⟩
    · exact ⟨c₀, put_eq_some.mpr (.inr ⟨hne, hj⟩), rfl, rfl⟩

theorem Spool.Explained.crash (h : s.Explained formats start l) :
    Spool.Explained formats start
      { s with file := s.file.crashed, calls := fun i => (s.calls i).map Call.crashed }
      { l with holder := none } := by
  refine h.released rfl (fun j => ?_) (fun j c hj => ?_) fun j c₀ hj => ?_
  · simp only [SpoolFile.crashed]
    split <;> simp
  · obtain ⟨c₀, hj₀, rfl⟩ := Option.map_eq_some_iff.mp hj
    refine ⟨c₀, hj₀, rfl, ?_, (h.sound j c₀ hj₀).crashed⟩
    unfold Call.crashed
    cases htask : c₀.task <;> simp
  · exact ⟨c₀.crashed, by simp [hj], rfl, rfl⟩

/-- Only the holder changes, and no call is or becomes it. -/
theorem Spool.Explained.elsewhere {holder : Option Holder} (h : s.Explained formats start l)
    (hbefore : ∀ i, s.file.holder ≠ some (.task i)) (hafter : ∀ i, holder ≠ some (.task i)) :
    Spool.Explained formats start { s with file := { s.file with holder := holder } } l := by
  refine ⟨h.serial, h.resource, fun i => ?_, fun i => ?_, h.sections, h.signalled, h.nodup, h.sound⟩
  · exact iff_of_false (hafter i) fun hi => hbefore i ((h.holder i).mpr hi)
  · exact iff_of_false (hafter i) fun hi => hbefore i ((h.writing i).mpr hi)

end

section

variable {hb : Registry} {rfc3339 : DateTime → String} {formats : DateFormats}
  {start : List UInt8} {s t : Spool}

theorem prepare_eq_ok {n : LocalMailNotifier} {ctx : RunContext} {summary : RunReport}
    {isCancelled : Bool} {now : DateTime} {outcome : NotifyOutcome}
    (h : n.prepare hb rfc3339 ctx summary isCancelled now = .error (.ok outcome)) :
    outcome = .skipped .fireOnMismatch := by
  unfold LocalMailNotifier.prepare at h
  split at h
  · simpa using h.symm
  · split at h
    · simp at h
    · split at h
      · simp at h
      · split at h
        · simp at h
        · simp at h

variable (hb rfc3339 formats) in
theorem sound_start (n : LocalMailNotifier) (ctx : RunContext) (summary : RunReport)
    (isCancelled : Bool) (now : DateTime) :
    (Call.start hb rfc3339 formats n ctx summary isCancelled now).Sound formats ∧
      (Call.start hb rfc3339 formats n ctx summary isCancelled now).signalled = false ∧
      (Call.start hb rfc3339 formats n ctx summary isCancelled now).task ≠ .writing := by
  unfold Call.start
  split
  · next outcome hprepare =>
    refine ⟨⟨by simp, by simp, by simp, by simp, by simp, ?_⟩, rfl, by simp⟩
    refine .returned outcome (.unspawned rfl fun receipt hsent => ?_)
    subst hsent
    cases prepare_eq_ok hprepare
  · next m hprepare =>
    refine ⟨⟨by simp, by simp, by simp, ?_, ?_, .racing (by simp)⟩, rfl, by simp⟩
    · intro m' hm'
      rw [Option.some.inj hm', List.nil_append]
    · exact fun _ => ⟨m, rfl⟩

theorem explained_step {a : SpoolAction} (h : ∃ l, s.Explained formats start l)
    (hstep : s.step hb rfc3339 formats a = some t) : ∃ l, t.Explained formats start l := by
  obtain ⟨l, h⟩ := h
  cases a with
  | begin i n ctx summary isCancelled now =>
    obtain ⟨⟨hnone, -⟩, rfl⟩ := Transition.guard_eq_some.mp hstep
    have hnone : s.calls i = none := by simpa using hnone
    obtain ⟨hsound, hsignalled, hwriting⟩ :=
      sound_start hb rfc3339 formats n ctx summary isCancelled now
    refine ⟨l, h.put (fun c₀ hc₀ => ?_) (fun _ => hsignalled) Iff.rfl (fun _ => hwriting) rfl rfl
      hsound⟩
    rw [hnone] at hc₀
    cases hc₀
  | task i a =>
    obtain ⟨c, hc, hstep⟩ := Option.bind_eq_some_iff.mp hstep
    obtain ⟨⟨c', f'⟩, htask, rfl⟩ := Option.map_eq_some_iff.mp hstep
    have hcases := stepTask_cases htask
    have hsound : c'.Sound formats := (h.sound i c hc).stepTask hcases
    cases hcases with
    | quiet _ task hearly hlate ha =>
      refine ⟨l, h.put (fun c₀ hc₀ => Option.some.inj (hc₀.symm.trans hc)) ?_ ?_ ?_ rfl rfl hsound⟩
      · intro hnone
        rw [hc] at hnone
        cases hnone
      · refine iff_of_false ?_ ?_
        · rcases hlate with rfl | ⟨r, rfl, -⟩ <;> simp
        · rcases hearly with hearly | hearly <;> simp [hearly]
      · intro hnone
        rw [hc] at hnone
        cases hnone
    | lock hlocking hfree => exact ⟨_, h.lock hc hlocking hfree hsound⟩
    | write n hwriting hpos hle => exact ⟨_, h.write hc hwriting n hsound⟩
    | finish _ r hwriting hrest ha => exact ⟨_, h.finish hc hwriting r hsound⟩
  | call i a =>
    obtain ⟨c, hc, hstep⟩ := Option.bind_eq_some_iff.mp hstep
    obtain ⟨c', hcall, rfl⟩ := Option.map_eq_some_iff.mp hstep
    have hsound : c'.Sound formats := (h.sound i c hc).stepCall hcall
    obtain ⟨pc, isCancelled, rfl⟩ := stepCall_frame hcall
    have hsome : s.calls i ≠ none := by simp [hc]
    exact ⟨l, h.put (fun c₀ hc₀ => Option.some.inj (hc₀.symm.trans hc))
      (fun hnone => absurd hnone hsome) Iff.rfl (fun hnone => absurd hnone hsome) rfl rfl hsound⟩
  | lockElsewhere =>
    obtain ⟨hfree, rfl⟩ := Transition.guard_eq_some.mp hstep
    exact ⟨l, h.elsewhere (fun i hi => by simp [hfree] at hi) fun i hi => by cases hi⟩
  | unlockElsewhere =>
    obtain ⟨hheld, rfl⟩ := Transition.guard_eq_some.mp hstep
    exact ⟨l, h.elsewhere (fun i hi => by simp [hheld] at hi) fun i hi => by cases hi⟩
  | crash =>
    cases hstep
    exact ⟨_, h.crash⟩

theorem explained_run {path : String} {as : List SpoolAction}
    (hrun : Transition.run (Spool.step hb rfc3339 formats) (Spool.initial path start) as = some t) :
    ∃ l, t.Explained formats start l :=
  Transition.invariant_run (fun _ _ _ h hstep => explained_step h hstep)
    ⟨_, explained_initial path start⟩ hrun

end

end Gcit.Mail
