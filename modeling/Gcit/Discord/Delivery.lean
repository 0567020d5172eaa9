import Gcit.Discord.Notifier
import Gcit.Flow.FanOut

/-! # What a finished run posts

The calls of `on_run_complete` that the fan-out makes of its Discord notifiers, with their
requests. A request that its call gave up on may still be taken.
-/

namespace Gcit.Discord

open Gcit Gcit.Git Gcit.Flow Gcit.Library Gcit.Notify

/-- Between the client and Discord. -/
inductive Wire where
  | empty
  | request (embed : Embed)
  | answer (status : Nat)

def Wire.requests : Wire → Nat
  | .request _ => 1
  | .empty | .answer _ => 0

inductive CallPc where
  | called
  | waiting (embed : Embed)
  | returned (result : Except NotifyError NotifyOutcome)

/-- A call of `on_run_complete`, with what Discord posted for it. -/
structure Flight where
  summary : RunReport
  pc : CallPc
  wire : Wire
  posted : List Embed

inductive FlightAction where
  | poll (isCancelled : Bool)
  /-- Discord takes the request, and posts its embed or not. -/
  | take (status : Nat) (posts : Bool)
  /-- The request or its answer gets lost. -/
  | lose
  | read
  | fail (err : TwilightError)
  | cancel

/-- What a status says about the message. After a server error it may be there or not. -/
def Answers (status : Nat) (posts : Bool) : Prop :=
  (isSuccess status = true → posts = true) ∧
    (isSuccess status = false → isServerError status = false → posts = false)

instance (status : Nat) (posts : Bool) : Decidable (Answers status posts) :=
  inferInstanceAs (Decidable (_ ∧ _))

namespace Flight

def begin (summary : RunReport) : Flight := ⟨summary, .called, .empty, []⟩

def result (f : Flight) : Option (Except NotifyError NotifyOutcome) :=
  match f.pc with
  | .returned result => some result
  | .called | .waiting _ => none

theorem result_eq_some {f : Flight} {result : Except NotifyError NotifyOutcome} :
    f.result = some result ↔ f.pc = .returned result := by
  unfold Flight.result
  cases f.pc <;> simp

variable (crates : DiscordCrates) (n : DiscordNotifier) (ctx : RunContext)

def poll (f : Flight) (isCancelled : Bool) : Flight :=
  match n.prepare crates ctx f.summary isCancelled with
  | .error result => { f with pc := .returned result }
  | .ok embed => match crates.requestError embed with
    | some text =>
      { f with pc := .returned (.error (classifyTwilightError crates ⟨.validation, text⟩)) }
    | none => { f with pc := .waiting embed, wire := .request embed }

def answered (f : Flight) (embed : Embed) (status : Nat) : Flight :=
  match n.onAnswer crates status with
  | some result => { f with pc := .returned result, wire := .empty }
  | none => { f with wire := .request embed }

def step (f : Flight) : FlightAction → Option Flight
  | .poll isCancelled => match f.pc with
    | .called => some (f.poll crates n ctx isCancelled)
    | .waiting _ | .returned _ => none
  | .take status posts => match f.wire with
    | .request embed =>
      if Answers status posts then
        some { f with wire := .answer status, posted := f.posted ++ if posts then [embed] else [] }
      else none
    | .empty | .answer _ => none
  | .lose => some { f with wire := .empty }
  | .read => match f.pc, f.wire with
    | .waiting embed, .answer status => some (f.answered crates n embed status)
    | _, _ => none
  | .fail err => match f.pc with
    | .waiting _ =>
      if err.kind = .requestTimedOut ∨ err.kind = .other then
        some { f with pc := .returned (.error (classifyTwilightError crates err)) }
      else none
    | .called | .returned _ => none
  | .cancel => match f.pc with
    | .waiting _ => some { f with pc := .returned (.error n.cancelledError) }
    | .called | .returned _ => none

/-- What the end of a call says about its message. -/
def Concludes (posted : List Embed) (wire : Wire) : Except NotifyError NotifyOutcome → Prop
  | .ok (.sent receipt) => receipt = n.receipt ∧ posted ≠ []
  | .ok (.skipped _) | .error (.permanent _) => posted = [] ∧ wire.requests = 0
  | .error (.transient ..) => True

/-- The message of a call is in one place at most, and what its answer says is true. -/
structure Sound (f : Flight) : Prop where
  once : f.posted.length + f.wire.requests ≤ 1
  built : ∀ embed, f.pc = .waiting embed ∨ f.wire = .request embed ∨ embed ∈ f.posted →
    n.Built crates ctx f.summary embed
  called : f.pc = .called → f.wire = .empty ∧ f.posted = []
  answer : ∀ status, f.wire = .answer status → (isSuccess status = true → f.posted ≠ []) ∧
    (isSuccess status = false → isServerError status = false → f.posted = [])
  ended : ∀ result, f.pc = .returned result → Concludes n f.posted f.wire result

variable {crates n ctx} {f g : Flight} {a : FlightAction}

theorem sound_begin (summary : RunReport) : Sound crates n ctx (begin summary) where
  once := Nat.zero_le 1
  built := by simp [begin]
  called _ := ⟨rfl, rfl⟩
  answer := by simp [begin]
  ended := by simp [begin]

/-- Nothing was posted for a call that ends before its request. -/
theorem concludes_of_prepare {isCancelled : Bool} {result : Except NotifyError NotifyOutcome}
    (hsilent : f.posted = [] ∧ f.wire.requests = 0)
    (h : n.prepare crates ctx f.summary isCancelled = .error result) :
    Concludes n f.posted f.wire result := by
  cases result with
  | ok outcome =>
    cases outcome with
    | sent receipt => exact absurd h prepare_ne_sent
    | skipped reason => exact hsilent
  | error err =>
    cases err with
    | permanent source => exact hsilent
    | transient source retryAfter => trivial

theorem sound_poll {isCancelled : Bool} (hf : f.Sound crates n ctx) (hpc : f.pc = .called) :
    (f.poll crates n ctx isCancelled).Sound crates n ctx := by
  obtain ⟨hwire, hposted⟩ := hf.called hpc
  have hsilent : f.posted = [] ∧ f.wire.requests = 0 := ⟨hposted, by rw [hwire]; rfl⟩
  have hover : ∀ result, Concludes n f.posted f.wire result →
      Sound crates n ctx { f with pc := .returned result } := fun result hresult =>
    { once := hf.once
      built := fun embed h => hf.built embed (.inr (h.resolve_left nofun))
      called := nofun
      answer := hf.answer
      ended := fun _ h => CallPc.returned.inj h ▸ hresult }
  unfold Flight.poll
  split
  case h_1 result hprepare => exact hover result (concludes_of_prepare hsilent hprepare)
  case h_2 embed hprepare =>
  split
  case h_1 text herror => exact hover _ hsilent
  case h_2 =>
  exact
    { once := by simp [hposted, Wire.requests]
      built := by
        rintro e (h | h | h)
        · exact CallPc.waiting.inj h ▸ built_of_prepare hprepare
        · exact Wire.request.inj h ▸ built_of_prepare hprepare
        · rw [hposted] at h
          cases h
      called := nofun
      answer := nofun
      ended := nofun }

/-- A call that ends on an answer tells what the answer says. -/
theorem concludes_of_onAnswer {posted : List Embed} {status : Nat}
    {result : Except NotifyError NotifyOutcome} (hyes : isSuccess status = true → posted ≠ [])
    (hno : isSuccess status = false → isServerError status = false → posted = [])
    (h : n.onAnswer crates status = some result) : Concludes n posted .empty result := by
  obtain ⟨hsuccess, rfl⟩ | ⟨hfailed, rfl⟩ := onAnswer_eq_some h
  · exact ⟨rfl, hyes hsuccess⟩
  · cases hserver : isServerError status with
    | false =>
      cases hclass : classifyTwilightError crates ⟨.response status, ""⟩ with
      | permanent => exact ⟨hno hfailed hserver, rfl⟩
      | transient => trivial
    | true =>
      have htransient :
          (classifyTwilightError crates ⟨.response status, ""⟩).isTransient = true :=
        classify_isTransient hserver ""
      cases hclass : classifyTwilightError crates ⟨.response status, ""⟩ with
      | permanent =>
        rw [hclass] at htransient
        cases htransient
      | transient => trivial

theorem sound_answered {embed : Embed} {status : Nat} (hf : f.Sound crates n ctx)
    (hpc : f.pc = .waiting embed) (hwire : f.wire = .answer status) :
    (f.answered crates n embed status).Sound crates n ctx := by
  obtain ⟨hyes, hno⟩ := hf.answer status hwire
  have hbuilt : ∀ e, e ∈ f.posted → n.Built crates ctx f.summary e := fun e h =>
    hf.built e (.inr (.inr h))
  unfold Flight.answered
  split
  case h_1 result hresult =>
    exact
      { once := (Nat.le_add_right _ _).trans hf.once
        built := fun e h => hbuilt e ((h.resolve_left nofun).resolve_left nofun)
        called := nofun
        answer := nofun
        ended := fun _ h => CallPc.returned.inj h ▸ concludes_of_onAnswer hyes hno hresult }
  case h_2 hresult =>
    have hposted : f.posted = [] := by
      obtain ⟨hfailed, rfl⟩ := onAnswer_eq_none.mp hresult
      exact hno hfailed rfl
    exact
      { once := by simp [hposted, Wire.requests]
        built := by
          rintro e (h | h | h)
          · exact hf.built e (.inl h)
          · exact Wire.request.inj h ▸ hf.built embed (.inl hpc)
          · exact hbuilt e h
        called := fun h => absurd (hpc.symm.trans h) nofun
        answer := nofun
        ended := fun _ h => absurd (hpc.symm.trans h) nofun }

theorem sound_taken {embed : Embed} {status : Nat} {posts : Bool} (hf : f.Sound crates n ctx)
    (hwire : f.wire = .request embed) (hanswers : Answers status posts) :
    Sound crates n ctx { f with
      wire := .answer status, posted := f.posted ++ if posts then [embed] else [] } := by
  have hposted : f.posted = [] := by
    have hle := hf.once
    rw [hwire, Wire.requests] at hle
    exact List.length_eq_zero_iff.mp (by omega)
  refine ⟨?_, ?_, fun hpc => ?_, ?_, fun result hpc => ?_⟩
  · cases posts <;> simp [hposted, Wire.requests]
  · rintro e (h | h | h)
    · exact hf.built e (.inl h)
    · cases h
    · rw [hposted] at h
      cases posts with
      | false => cases h
      | true => exact List.mem_singleton.mp h ▸ hf.built embed (.inr (.inl hwire))
  · rw [(hf.called hpc).1] at hwire
    cases hwire
  · intro status' h
    obtain rfl := Wire.answer.inj h
    refine ⟨fun hsuccess => ?_, fun hfailed hserver => ?_⟩
    · simp [hanswers.1 hsuccess]
    · simp [hanswers.2 hfailed hserver, hposted]
  · have hover := hf.ended result hpc
    cases result with
    | ok outcome =>
      cases outcome with
      | sent receipt => exact absurd hposted hover.2
      | skipped reason =>
        rw [hwire] at hover
        cases hover.2
    | error err =>
      cases err with
      | permanent source =>
        rw [hwire] at hover
        cases hover.2
      | transient source retryAfter => trivial

theorem sound_left {err : NotifyError} (hf : f.Sound crates n ctx)
    (htransient : err.isTransient = true) :
    Sound crates n ctx { f with pc := .returned (.error err) } where
  once := hf.once
  built e h := hf.built e (.inr (h.resolve_left nofun))
  called := nofun
  answer := hf.answer
  ended result h := by
    obtain rfl := CallPc.returned.inj h
    cases err with
    | permanent => cases htransient
    | transient => trivial

theorem sound_lost (hf : f.Sound crates n ctx) : Sound crates n ctx { f with wire := .empty } where
  once := (Nat.le_add_right _ _).trans hf.once
  built e h := hf.built e (h.imp_right (·.resolve_left nofun |> .inr))
  called h := ⟨rfl, (hf.called h).2⟩
  answer := nofun
  ended result h := by
    have hover := hf.ended result h
    cases result with
    | ok outcome =>
      cases outcome with
      | sent receipt => exact hover
      | skipped reason => exact ⟨hover.1, rfl⟩
    | error err =>
      cases err with
      | permanent source => exact ⟨hover.1, rfl⟩
      | transient source retryAfter => trivial

/-- What a step can do. A call that gives up leaves its request where it is. -/
inductive Moves (crates : DiscordCrates) (n : DiscordNotifier) (ctx : RunContext) (f : Flight) :
    Flight → Prop where
  | polled (isCancelled : Bool) (hpc : f.pc = .called) :
      Moves crates n ctx f (f.poll crates n ctx isCancelled)
  | taken (embed : Embed) (status : Nat) (posts : Bool) (hwire : f.wire = .request embed)
      (hanswers : Answers status posts) : Moves crates n ctx f { f with
        wire := .answer status, posted := f.posted ++ if posts then [embed] else [] }
  | lost : Moves crates n ctx f { f with wire := .empty }
  | read (embed : Embed) (status : Nat) (hpc : f.pc = .waiting embed)
      (hwire : f.wire = .answer status) : Moves crates n ctx f (f.answered crates n embed status)
  | left (embed : Embed) (err : NotifyError) (hpc : f.pc = .waiting embed)
      (htransient : err.isTransient = true) :
      Moves crates n ctx f { f with pc := .returned (.error err) }

theorem moves_of_step (h : f.step crates n ctx a = some g) : Moves crates n ctx f g := by
  cases a with
  | poll isCancelled =>
    simp only [step] at h
    split at h
    case h_1 hpc => exact Option.some.inj h ▸ .polled isCancelled hpc
    all_goals cases h
  | take status posts =>
    simp only [step] at h
    split at h
    case h_1 embed hwire =>
      obtain ⟨hanswers, rfl⟩ := Transition.guard_eq_some.mp h
      exact .taken embed status posts hwire hanswers
    all_goals cases h
  | lose => exact Option.some.inj h ▸ .lost
  | read =>
    simp only [step] at h
    split at h
    case h_1 embed status hpc hwire => exact Option.some.inj h ▸ .read embed status hpc hwire
    case h_2 => cases h
  | fail err =>
    simp only [step] at h
    split at h
    case h_1 embed hpc =>
      obtain ⟨hkind, rfl⟩ := Transition.guard_eq_some.mp h
      refine .left embed _ hpc ?_
      unfold classifyTwilightError
      obtain hkind | hkind := hkind <;> rw [hkind] <;> rfl
    all_goals cases h
  | cancel =>
    simp only [step] at h
    split at h
    case h_1 embed hpc => exact Option.some.inj h ▸ .left embed n.cancelledError hpc rfl
    all_goals cases h

theorem sound_moves (hf : f.Sound crates n ctx) (h : Moves crates n ctx f g) :
    g.Sound crates n ctx := by
  cases h with
  | polled isCancelled hpc => exact sound_poll hf hpc
  | taken embed status posts hwire hanswers => exact sound_taken hf hwire hanswers
  | lost => exact sound_lost hf
  | read embed status hpc hwire => exact sound_answered hf hpc hwire
  | left embed err hpc htransient => exact sound_left hf htransient

theorem summary_moves (h : Moves crates n ctx f g) : g.summary = f.summary := by
  cases h with
  | polled isCancelled hpc =>
    unfold Flight.poll
    split
    · rfl
    · split <;> rfl
  | read embed status hpc hwire =>
    unfold Flight.answered
    split <;> rfl
  | taken | lost | left => rfl

/-- A call returns once. -/
theorem returned_moves {result : Except NotifyError NotifyOutcome} (h : Moves crates n ctx f g)
    (hover : f.pc = .returned result) : g.pc = .returned result := by
  cases h with
  | polled isCancelled hpc => exact absurd (hpc.symm.trans hover) nofun
  | read embed status hpc hwire => exact absurd (hpc.symm.trans hover) nofun
  | left embed err hpc htransient => exact absurd (hpc.symm.trans hover) nofun
  | taken | lost => exact hover

end Flight

/-- A run with the calls of `on_run_complete` of each notifier. -/
structure Delivery where
  fan : FanOut
  flights : Nat → List Flight

inductive DeliveryAction where
  | fan (action : FanOutAction)
  | call (notifier i : Nat) (action : FlightAction)

namespace Delivery

/-- The call of `on_run_complete` that an action begins. -/
def begun (s : Delivery) : FanOutAction → Option (Nat × RunReport)
  | .start task => match s.fan.spawned[task]? with
    | some (.onRunComplete notifier summary) => some (notifier, summary)
    | _ => none
  | _ => none

def ended (s : Delivery) : FanOutAction → Option Nat
  | .finish task => match s.fan.running[task]? with
    | some (.onRunComplete notifier _) => some notifier
    | _ => none
  | _ => none

def start (events : List SourceEvent) : Delivery := ⟨.start events, fun _ => []⟩

def results (s : Delivery) (notifier : Nat) : List (Except NotifyError NotifyOutcome) :=
  (s.flights notifier).filterMap (·.result)

def posted (s : Delivery) (notifier : Nat) : List Embed := (s.flights notifier).flatMap (·.posted)

/-- The requests that Discord may still take. -/
def outgoing (s : Delivery) (notifier : Nat) : Nat :=
  ((s.flights notifier).map (·.wire.requests)).sum

variable (crates : DiscordCrates) (params : MonitorParams)
  (notifiers : List (Option DiscordNotifier))

/-- The task of a Discord notifier finishes when its call is over. -/
def mayEnd (s : Delivery) (a : FanOutAction) : Bool :=
  match s.ended a with
  | some notifier => match notifiers[notifier]? with
    | some (some _) => (s.flights notifier).all (·.result.isSome)
    | _ => true
  | none => true

/-- A place of the list is empty where the notifier is of another kind. -/
def step (s : Delivery) : DeliveryAction → Option Delivery
  | .fan a =>
    if s.mayEnd notifiers a then
      (FanOut.step params notifiers.length s.fan a).map fun fan =>
        ⟨fan, match s.begun a with
          | some (notifier, summary) =>
            Function.update s.flights notifier (s.flights notifier ++ [.begin summary])
          | none => s.flights⟩
    else none
  | .call notifier i a => match notifiers[notifier]?, (s.flights notifier)[i]? with
    | some (some n), some f => (f.step crates n params.runContext a).map fun g =>
      { s with flights := Function.update s.flights notifier ((s.flights notifier).set i g) }
    | _, _ => none

/-- The calls that a notifier got, and that its task goes on until they are over. -/
structure Sound (events : List SourceEvent) (notifier : Nat) (n : DiscordNotifier)
    (s : Delivery) : Prop where
  fan : ∃ actions,
    Transition.run (FanOut.step params notifiers.length) (.start events) actions = some s.fan
  count : (s.flights notifier).length = s.fan.calls.countP (·.isRunFor notifier)
  sound : ∀ f ∈ s.flights notifier,
    f.Sound crates n params.runContext ∧ finalSummary events = some f.summary
  running : s.fan.running.countP (·.isRunFor notifier) = 0 →
    ∀ f ∈ s.flights notifier, f.result.isSome

variable {crates params notifiers} {events : List SourceEvent} {notifier : Nat}
  {n : DiscordNotifier} {s t : Delivery}

theorem sound_start : Sound crates params notifiers events notifier n (start events) where
  fan := ⟨[], rfl⟩
  count := rfl
  sound := List.forall_mem_nil _
  running _ := List.forall_mem_nil _

/-- A step that leaves a notifier's calls alone. -/
theorem sound_of_same (hs : Sound crates params notifiers events notifier n s)
    (hfan : ∃ actions,
      Transition.run (FanOut.step params notifiers.length) (.start events) actions = some t.fan)
    (hflights : t.flights notifier = s.flights notifier)
    (hcalls : t.fan.calls.countP (·.isRunFor notifier) = s.fan.calls.countP (·.isRunFor notifier))
    (hrunning : t.fan.running.countP (·.isRunFor notifier) = 0 →
      s.fan.running.countP (·.isRunFor notifier) = 0) :
    Sound crates params notifiers events notifier n t where
  fan := hfan
  count := by rw [hflights, hcalls, hs.count]
  sound := hflights ▸ hs.sound
  running hidle := hflights ▸ hs.running (hrunning hidle)

theorem sound_fan {a : FanOutAction} (hn : notifiers[notifier]? = some (some n))
    (hs : Sound crates params notifiers events notifier n s)
    (h : s.step crates params notifiers (.fan a) = some t) :
    Sound crates params notifiers events notifier n t := by
  obtain ⟨actions, hrun⟩ := hs.fan
  obtain ⟨hmay, h⟩ := Option.ite_none_right_eq_some.mp h
  obtain ⟨fan, hstep, rfl⟩ := Option.map_eq_some_iff.mp h
  have hfan : ∃ actions,
      Transition.run (FanOut.step params notifiers.length) (.start events) actions = some fan :=
    ⟨actions ++ [a], Transition.run_append_eq_some.mpr
      ⟨_, hrun, Transition.run_cons_eq_some.mpr ⟨_, hstep, rfl⟩⟩⟩
  obtain ⟨task, call, rfl, hcall, hcalls, hrunning⟩ | ⟨task, call, rfl, hcall, hcalls, hrunning⟩ |
    ⟨hstart, hcalls, hrunning⟩ := FanOut.step_tasks hstep
  · cases call with
    | onJobComplete other job =>
      have hbegun : s.begun (.start task) = none := by simp only [begun, hcall]
      exact sound_of_same hs hfan (by simp only [hbegun])
        (by simp [hcalls, NotifierCall.isRunFor]) (by simp [hrunning, NotifierCall.isRunFor])
    | onRunComplete other summary =>
      have hbegun : s.begun (.start task) = some (other, summary) := by simp only [begun, hcall]
      by_cases hother : other = notifier
      · subst hother
        have hfinal : finalSummary events = some summary := FanOut.finalSummary_of_mem_callsOf
          (FanOut.mem_callsOf_of_spawned hrun (List.mem_of_getElem? hcall))
        refine ⟨hfan, ?_, ?_, fun hidle => ?_⟩
        · simp [hbegun, hcalls, NotifierCall.isRunFor, hs.count]
        · simp only [hbegun, Function.update_self]
          refine List.forall_mem_append.mpr ⟨hs.sound, List.forall_mem_singleton.mpr ?_⟩
          exact ⟨Flight.sound_begin summary, hfinal⟩
        · simp [hrunning, NotifierCall.isRunFor] at hidle
      · refine sound_of_same hs hfan ?_ ?_ ?_
        · simp only [hbegun]
          exact Function.update_of_ne (Ne.symm hother) _ _
        · simp [hcalls, NotifierCall.isRunFor, hother]
        · simp [hrunning, NotifierCall.isRunFor, hother]
  · obtain ⟨hlt, rfl⟩ := List.getElem?_eq_some_iff.mp hcall
    have hperm := (List.getElem_cons_eraseIdx_perm hlt).countP_eq (·.isRunFor notifier)
    rw [List.countP_cons, ← hrunning] at hperm
    cases hfor : s.fan.running[task].isRunFor notifier with
    | false =>
      rw [hfor] at hperm
      exact sound_of_same hs hfan rfl (by rw [hcalls]) fun hidle => hperm.symm.trans hidle
    | true =>
      -- The task that finishes is this notifier's own, whose call is over.
      have hended : s.ended (.finish task) = some notifier := by
        cases hcall' : s.fan.running[task] with
        | onJobComplete =>
          rw [hcall'] at hfor
          cases hfor
        | onRunComplete other summary =>
          rw [hcall'] at hfor
          obtain rfl : other = notifier := by simpa [NotifierCall.isRunFor] using hfor
          simp only [ended, hcall, hcall']
      simp only [mayEnd, hended, hn] at hmay
      exact ⟨hfan, hs.count.trans (by rw [hcalls]), hs.sound, fun _ => List.all_eq_true.mp hmay⟩
  · have hbegun : s.begun a = none := by
      cases a with
      | start task => exact absurd rfl (hstart task)
      | _ => rfl
    exact sound_of_same hs hfan (by simp only [hbegun]) (by rw [hcalls]) (by rw [hrunning]; exact id)

theorem sound_call {other i : Nat} {a : FlightAction} (hn : notifiers[notifier]? = some (some n))
    (hs : Sound crates params notifiers events notifier n s)
    (h : s.step crates params notifiers (.call other i a) = some t) :
    Sound crates params notifiers events notifier n t := by
  simp only [step] at h
  split at h
  case h_2 => cases h
  case h_1 m f hm hf =>
  obtain ⟨g, hg, rfl⟩ := Option.map_eq_some_iff.mp h
  by_cases hother : other = notifier
  · subst hother
    obtain rfl : n = m := Option.some.inj (Option.some.inj (hn.symm.trans hm))
    obtain ⟨hsound, hfinal⟩ := hs.sound f (List.mem_of_getElem? hf)
    have hmoves := Flight.moves_of_step hg
    refine ⟨hs.fan, ?_, ?_, fun hidle => ?_⟩
    · simpa using hs.count
    · simp only [Function.update_self]
      intro x hx
      rcases List.mem_or_eq_of_mem_set hx with hx | rfl
      · exact hs.sound x hx
      · exact ⟨Flight.sound_moves hsound hmoves, Flight.summary_moves hmoves ▸ hfinal⟩
    · simp only [Function.update_self]
      intro x hx
      rcases List.mem_or_eq_of_mem_set hx with hx | rfl
      · exact hs.running hidle x hx
      · obtain ⟨result, hresult⟩ :=
          Option.isSome_iff_exists.mp (hs.running hidle f (List.mem_of_getElem? hf))
        exact Option.isSome_iff_exists.mpr ⟨result, Flight.result_eq_some.mpr
          (Flight.returned_moves hmoves (Flight.result_eq_some.mp hresult))⟩
  · exact sound_of_same hs hs.fan (Function.update_of_ne (Ne.symm hother) _ _) rfl id

theorem sound_run {actions : List DeliveryAction} (hn : notifiers[notifier]? = some (some n))
    (hrun : Transition.run (step crates params notifiers) (start events) actions = some s) :
    Sound crates params notifiers events notifier n s := by
  refine Transition.invariant_run (I := Sound crates params notifiers events notifier n)
    (fun s a t hs h => ?_) sound_start hrun
  cases a with
  | fan a => exact sound_fan hn hs h
  | call other i a => exact sound_call hn hs h

theorem results_step {a : DeliveryAction} (h : s.step crates params notifiers a = some t) :
    ∀ result ∈ s.results notifier, result ∈ t.results notifier := by
  intro result hresult
  obtain ⟨f, hf, hfresult⟩ := List.mem_filterMap.mp hresult
  apply List.mem_filterMap.mpr
  cases a with
  | fan a =>
    obtain ⟨-, h⟩ := Option.ite_none_right_eq_some.mp h
    obtain ⟨fan, -, rfl⟩ := Option.map_eq_some_iff.mp h
    refine ⟨f, ?_, hfresult⟩
    cases hbegun : s.begun a with
    | none => exact hf
    | some call =>
      obtain ⟨other, summary⟩ := call
      by_cases hother : notifier = other
      · subst hother
        simp [hf]
      · simpa [hother] using hf
  | call other i a =>
    simp only [step] at h
    split at h
    case h_2 => cases h
    case h_1 m f' hm hf' =>
    obtain ⟨g, hg, rfl⟩ := Option.map_eq_some_iff.mp h
    by_cases hother : notifier = other
    · subst hother
      obtain ⟨j, hlt, rfl⟩ := List.getElem_of_mem hf
      by_cases hij : i = j
      · subst hij
        obtain rfl : (s.flights notifier)[i] = f' :=
          Option.some.inj ((List.getElem?_eq_getElem hlt).symm.trans hf')
        have hover := Flight.returned_moves (Flight.moves_of_step hg)
          (Flight.result_eq_some.mp hfresult)
        refine ⟨g, ?_, Flight.result_eq_some.mpr hover⟩
        simpa using List.mem_set hlt g
      · refine ⟨_, ?_, hfresult⟩
        have hmem := List.mem_of_getElem? ((List.getElem?_set_ne hij).trans
          (List.getElem?_eq_getElem hlt) : ((s.flights notifier).set i g)[j]? = _)
        simpa using hmem
    · exact ⟨f, by simpa [hother] using hf, hfresult⟩

/-- What a notifier posted for the run, and what its calls say about it. -/
structure Delivered (crates : DiscordCrates) (ctx : RunContext) (events : List SourceEvent)
    (s : Delivery) (notifier : Nat) (n : DiscordNotifier) : Prop where
  once : (s.posted notifier).length + s.outgoing notifier ≤ 1
  built : ∀ embed ∈ s.posted notifier, ∃ summary, finalSummary events = some summary ∧
    n.Built crates ctx summary embed
  sent : ∀ receipt, .ok (.sent receipt) ∈ s.results notifier →
    receipt = n.receipt ∧ (s.posted notifier).length = 1
  silent : ∀ result ∈ s.results notifier,
    ((∃ reason, result = .ok (.skipped reason)) ∨ ∃ source, result = .error (.permanent source)) →
      s.posted notifier = [] ∧ s.outgoing notifier = 0
  returned : s.fan.sent ≠ [] → (s.results notifier).length = 1

theorem delivered_run {actions : List DeliveryAction}
    (hrun : Transition.run (step crates params notifiers) (start events) actions = some s)
    (hn : notifiers[notifier]? = some (some n)) :
    s.Delivered crates params.runContext events notifier n := by
  have hs := sound_run hn hrun
  obtain ⟨fanActions, hfan⟩ := hs.fan
  have hcalls : (s.flights notifier).length ≤ 1 := by
    have hcount := FanOut.countP_run (·.isRunFor notifier) hfan
    have hle : (FanOut.callsOf notifiers.length ∅ events).countP (·.isRunFor notifier) ≤ 1 := by
      rw [FanOut.countP_callsOf_run]
      split
      · exact Nat.le_refl 1
      · exact Nat.zero_le 1
    rw [hs.count]
    omega
  have htold (hsent : s.fan.sent ≠ []) :
      s.fan.running = [] ∧ (s.flights notifier).length = 1 := by
    obtain ⟨-, hidle, hone⟩ := FanOut.told_of_sent hfan hsent
    exact ⟨hidle, hs.count.trans (hone notifier (List.getElem?_eq_some_iff.mp hn).1)⟩
  cases hflights : s.flights notifier with
  | nil =>
    have hposted : s.posted notifier = [] := by simp [posted, hflights]
    have hresults : s.results notifier = [] := by simp [results, hflights]
    have houtgoing : s.outgoing notifier = 0 := by simp [outgoing, hflights]
    refine ⟨?_, ?_, ?_, fun _ _ _ => ⟨hposted, houtgoing⟩, fun hsent => ?_⟩
    · simp [hposted, houtgoing]
    · simp [hposted]
    · simp [hresults]
    · have hone := (htold hsent).2
      rw [hflights] at hone
      cases hone
  | cons f rest =>
    obtain rfl : rest = [] := by
      rw [hflights] at hcalls
      exact List.length_eq_zero_iff.mp (Nat.le_zero.mp (Nat.le_of_succ_le_succ hcalls))
    have hf : f ∈ s.flights notifier := hflights ▸ List.mem_singleton_self f
    obtain ⟨hsound, hfinal⟩ := hs.sound f hf
    have hposted : s.posted notifier = f.posted := by simp [posted, hflights]
    have houtgoing : s.outgoing notifier = f.wire.requests := by simp [outgoing, hflights]
    have hresults : s.results notifier = f.result.toList := by
      rw [results, hflights]
      cases hresult : f.result <;> simp [hresult]
    have hover : ∀ result ∈ s.results notifier, Flight.Concludes n f.posted f.wire result :=
      fun result hmem => hsound.ended result
        (Flight.result_eq_some.mp (Option.mem_toList.mp (hresults ▸ hmem)))
    refine ⟨?_, fun embed hmem => ?_, fun receipt hmem => ?_, fun result hmem hsilent => ?_,
      fun hsent => ?_⟩
    · rw [hposted, houtgoing]
      exact hsound.once
    · exact ⟨f.summary, hfinal, hsound.built embed (.inr (.inr (hposted ▸ hmem)))⟩
    · obtain ⟨hreceipt, hsome⟩ := hover _ hmem
      have hle := hsound.once
      have hpos := List.length_pos_iff.mpr hsome
      exact ⟨hreceipt, hposted ▸ by omega⟩
    · rw [hposted, houtgoing]
      obtain ⟨reason, rfl⟩ | ⟨source, rfl⟩ := hsilent
      · exact hover _ hmem
      · exact hover _ hmem
    · obtain ⟨result, hresult⟩ := Option.isSome_iff_exists.mp
        (hs.running (by rw [(htold hsent).1]; rfl) f hf)
      rw [hresults, hresult]
      rfl

/-- For every Discord notifier of a watched run, whatever its other notifiers do, and
however requests, answers and cancellations come: at most one message is posted, which is
the one built for the final summary, and what the call returns is true of it and
stays true. -/
theorem run_complete_delivered {actions later : List DeliveryAction}
    (hrun : Transition.run (step crates params notifiers) (start events) actions = some s)
    (hn : notifiers[notifier]? = some (some n))
    (hlater : Transition.run (step crates params notifiers) s later = some t) :
    s.Delivered crates params.runContext events notifier n ∧
      t.Delivered crates params.runContext events notifier n ∧
      ∀ result ∈ s.results notifier, result ∈ t.results notifier := by
  have hall : Transition.run (step crates params notifiers) (start events) (actions ++ later) =
      some t := Transition.run_append_eq_some.mpr ⟨s, hrun, hlater⟩
  refine ⟨delivered_run hrun hn, delivered_run hall hn, ?_⟩
  exact Transition.invariant_run
    (I := fun t => ∀ result ∈ s.results notifier, result ∈ t.results notifier)
    (fun _ _ _ hkept h result hmem => results_step h result (hkept result hmem))
    (fun _ => id) hlater

def plainCrates : DiscordCrates where
  registry := plainRegistry
  rfc3339 := mailRfc3339
  validateEmbed _ := .ok ()
  requestError _ := none
  canonicalReason _ := none

def opsWebhook : DiscordNotifier where
  id := "ops"
  parsed := ⟨1, "token", by decide, by decide, by decide⟩
  fireOn := [.runComplete]
  template := {}

def watchedRun : MonitorParams :=
  ⟨"linux", "owner/repo", "ci.yml", 1, seconds 30, blankContext⟩

/-- Discord refuses the first request for its rate, and takes the second one. -/
def refusedOnce : List DeliveryAction :=
  [.fan .receive, .fan (.joined 0), .fan (.start 0), .call 0 0 (.poll false),
    .call 0 0 (.take 429 false), .call 0 0 .read]

def takenThen : List DeliveryAction :=
  [.call 0 0 (.take 204 true), .call 0 0 .read, .fan (.finish 0), .fan (.joined 0), .fan .send]

theorem posted_after_refusal : ∃ s t embed,
    Transition.run (step plainCrates watchedRun [some opsWebhook])
      (start [.done (failedRun 0)]) refusedOnce = some s ∧ s.posted 0 = [] ∧
    Transition.run (step plainCrates watchedRun [some opsWebhook]) s takenThen = some t ∧
    t.posted 0 = [embed] ∧ t.results 0 = [.ok (.sent opsWebhook.receipt)] := by
  have hfirst : ((Transition.run (step plainCrates watchedRun [some opsWebhook])
      (start [.done (failedRun 0)]) refusedOnce).bind fun s =>
        (Transition.run (step plainCrates watchedRun [some opsWebhook]) s takenThen).map fun t =>
          ((s.posted 0).length, t.results 0)) = some (0, [.ok (.sent opsWebhook.receipt)]) := by
    decide +kernel
  obtain ⟨s, hs, hfirst⟩ := Option.bind_eq_some_iff.mp hfirst
  obtain ⟨t, ht, heq⟩ := Option.map_eq_some_iff.mp hfirst
  obtain ⟨hnone, hresults⟩ := Prod.ext_iff.mp heq
  have hn : [some opsWebhook][0]? = some (some opsWebhook) := rfl
  obtain ⟨-, hdelivered, -⟩ := run_complete_delivered hs hn ht
  have hone := (hdelivered.sent opsWebhook.receipt
    (by rw [show t.results 0 = _ from hresults]; exact List.mem_singleton_self _)).2
  obtain ⟨embed, hembed⟩ := List.length_eq_one_iff.mp hone
  exact ⟨s, t, embed, hs, List.length_eq_zero_iff.mp hnone, ht, hembed, hresults⟩

end Delivery

end Gcit.Discord
