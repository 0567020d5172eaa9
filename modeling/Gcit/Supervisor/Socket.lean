import Mathlib.Logic.Function.Basic
import Gcit.Library.Transition

/-! # The control socket

Daemons that bind their control socket at one path. Each tries the lock of its runtime
directory first. Then it looks whether something is at the path, connects to it, removes
it if nobody answers and binds its own, with the system calls of the others in between.
Nobody else removes what is at the path.
-/

namespace Gcit.Socket

open Gcit.Library

/-- What is at the path: the socket that a daemon bound, or something else, which somebody
may listen on. -/
inductive Node where
  | socket (owner : Nat)
  | other (served : Bool)
  deriving DecidableEq

inductive Ending where
  | lockHeld
  | alreadyListening
  | failed
  | returned
  | crashed
  deriving DecidableEq

/-- Behind the lock from `locked` to `closing`. The boot of an `abandoned` daemon failed
after it began to listen, and its process is still there. -/
inductive Stage where
  | locking
  | locked
  | inherited
  | found
  | stale
  | clear
  | bound
  | listening
  | closing
  | abandoned
  | gone (ending : Ending)
  deriving DecidableEq

structure System where
  path : Option Node
  holder : Nat → Option Nat
  stages : Nat → Option Stage

inductive Event where
  | launch (i : Nat)
  | lock (i : Nat)
  | refused (i : Nat)
  /-- systemd passed a listener. -/
  | inherit (i : Nat)
  | lookup (i : Nat)
  | connect (i : Nat)
  | remove (i : Nat)
  | removeFails (i : Nat)
  | bind (i : Nat)
  | listen (i : Nat)
  | fails (i : Nat)
  | bootFails (i : Nat)
  | stop (i : Nat)
  | finish (i : Nat)
  | exit (i : Nat)
  | crash (i : Nat)
  /-- Somebody else comes to the path, or stops to listen there. -/
  | place (served : Bool)
  | otherEnds

def Stage.holds : Stage → Bool
  | .locking | .abandoned | .gone _ => false
  | _ => true

/-- The socket is bound, and its process has it open. -/
def Stage.isOpen : Stage → Bool
  | .bound | .listening | .abandoned => true
  | _ => false

def Stage.serves : Stage → Bool
  | .listening | .abandoned => true
  | _ => false

namespace System

def put (s : System) (i : Nat) (stage : Stage) : System :=
  { s with stages := Function.update s.stages i (some stage) }

def connects (s : System) : Bool :=
  match s.path with
  | none => false
  | some (.other served) => served
  | some (.socket j) => (s.stages j).any Stage.serves

variable (dir : Nat → Nat)

def release (s : System) (i : Nat) : System :=
  if s.holder (dir i) = some i then { s with holder := Function.update s.holder (dir i) none } else s

def leave (s : System) (i : Nat) (ending : Ending) : System := (s.release dir i).put i (.gone ending)

/-- `dir` gives the runtime directory of each daemon. -/
def step (s : System) : Event → Option System
  | .launch i => if s.stages i = none then some (s.put i .locking) else none
  | .lock i =>
    if s.stages i = some .locking ∧ s.holder (dir i) = none then
      some { s.put i .locked with holder := Function.update s.holder (dir i) (some i) }
    else none
  | .refused i => if s.stages i = some .locking then some (s.put i (.gone .lockHeld)) else none
  | .inherit i => if s.stages i = some .locked then some (s.put i .inherited) else none
  | .lookup i =>
    if s.stages i = some .locked then some (s.put i (if s.path.isSome then .found else .clear))
    else none
  | .connect i =>
    if s.stages i = some .found then
      some (if s.connects then s.leave dir i .alreadyListening else s.put i .stale)
    else none
  | .remove i =>
    if s.stages i = some .stale then some { s.put i .clear with path := none } else none
  | .removeFails i => if s.stages i = some .stale then some (s.put i .clear) else none
  | .bind i =>
    if s.stages i = some .clear ∧ s.path = none then
      some { s.put i .bound with path := some (.socket i) }
    else none
  | .listen i => if s.stages i = some .bound then some (s.put i .listening) else none
  | .fails i =>
    if s.stages i ∈ [some .locked, some .clear, some .bound] then some (s.leave dir i .failed)
    else none
  | .bootFails i =>
    if s.stages i = some .listening then some ((s.release dir i).put i .abandoned) else none
  | .stop i =>
    if s.stages i ∈ [some .listening, some .inherited] then some (s.put i .closing) else none
  | .finish i => if s.stages i = some .closing then some (s.leave dir i .returned) else none
  | .exit i => if s.stages i = some .abandoned then some (s.put i (.gone .failed)) else none
  | .crash i => if (s.stages i).isSome then some (s.leave dir i .crashed) else none
  | .place served => if s.path = none then some { s with path := some (.other served) } else none
  | .otherEnds =>
    if s.path = some (.other true) then some { s with path := some (.other false) } else none

def initial (path : Option Node) : System := ⟨path, fun _ => none, fun _ => none⟩

/-- Every open socket is the one at the path, so one at most is open. -/
def Leads (s : System) : Prop :=
  ∀ i stage, s.stages i = some stage → stage.isOpen = true → s.path = some (.socket i)

end System

/-- No daemon removes the socket of another one from under it. -/
def Spares (s : System) : Event → Prop
  | .remove _ => ∀ j stage, s.path = some (.socket j) → s.stages j = some stage →
    stage.isOpen = false
  | _ => True

section

variable {dir : Nat → Nat} {s t : System} {i j : Nat} {a b stage : Stage}

@[simp] theorem put_path : (s.put i b).path = s.path := rfl

@[simp] theorem put_holder : (s.put i b).holder = s.holder := rfl

theorem put_stages : (s.put i b).stages j = if j = i then some b else s.stages j := by
  simp [System.put, Function.update_apply]

@[simp] theorem release_path : (s.release dir i).path = s.path := by
  unfold System.release
  split <;> rfl

@[simp] theorem release_stages : (s.release dir i).stages = s.stages := by
  unfold System.release
  split <;> rfl

/-- A daemon moves on, and opens no socket. -/
structure Moves (s t : System) (i : Nat) (b : Stage) : Prop where
  path : t.path = s.path
  stages : t.stages = (s.put i b).stages
  isOpen : b.isOpen = true → ∃ a, s.stages i = some a ∧ a.isOpen = true

theorem moves_put (h : b.isOpen = true → ∃ a, s.stages i = some a ∧ a.isOpen = true) :
    Moves s (s.put i b) i b := ⟨rfl, rfl, h⟩

theorem moves_release (h : b.isOpen = true → ∃ a, s.stages i = some a ∧ a.isOpen = true) :
    Moves s ((s.release dir i).put i b) i b := by
  refine ⟨release_path, funext fun j => ?_, h⟩
  rw [put_stages, put_stages, release_stages]

/-- What a step does to the path. -/
inductive Touches (s t : System) : Event → Prop
  | moves {e : Event} {i : Nat} {b : Stage} (h : Moves s t i b) (hremove : ∀ j, e ≠ .remove j) :
    Touches s t e
  | binds {i : Nat} (hstage : s.stages i = some .clear) (hfree : s.path = none)
    (hpath : t.path = some (.socket i)) (hstages : t.stages = (s.put i .bound).stages) :
    Touches s t (.bind i)
  | removes {i : Nat} (hstage : s.stages i = some .stale) (hpath : t.path = none)
    (hstages : t.stages = (s.put i .clear).stages) : Touches s t (.remove i)
  | other {e : Event} (hremove : ∀ j, e ≠ .remove j) (hpath : ∀ j, s.path ≠ some (.socket j))
    (hstages : t.stages = s.stages) : Touches s t e

theorem touches_of_step {e : Event} (h : s.step dir e = some t) : Touches s t e := by
  cases e with
  | launch i | refused i | inherit i | removeFails i | exit i =>
    obtain ⟨-, rfl⟩ := Transition.guard_eq_some.mp h
    exact .moves (moves_put nofun) nofun
  | lock i =>
    obtain ⟨-, rfl⟩ := Transition.guard_eq_some.mp h
    exact .moves ⟨rfl, rfl, nofun⟩ nofun
  | lookup i =>
    obtain ⟨-, rfl⟩ := Transition.guard_eq_some.mp h
    refine .moves (moves_put fun hopen => ?_) nofun
    split at hopen <;> cases hopen
  | connect i =>
    obtain ⟨-, rfl⟩ := Transition.guard_eq_some.mp h
    split
    · exact .moves (moves_release nofun) nofun
    · exact .moves (moves_put nofun) nofun
  | remove i =>
    obtain ⟨hstage, rfl⟩ := Transition.guard_eq_some.mp h
    exact .removes hstage rfl rfl
  | bind i =>
    obtain ⟨⟨hstage, hfree⟩, rfl⟩ := Transition.guard_eq_some.mp h
    exact .binds hstage hfree rfl rfl
  | listen i =>
    obtain ⟨hstage, rfl⟩ := Transition.guard_eq_some.mp h
    exact .moves (moves_put fun _ => ⟨_, hstage, rfl⟩) nofun
  | fails i | finish i | crash i =>
    obtain ⟨-, rfl⟩ := Transition.guard_eq_some.mp h
    exact .moves (moves_release nofun) nofun
  | bootFails i =>
    obtain ⟨hstage, rfl⟩ := Transition.guard_eq_some.mp h
    exact .moves (moves_release fun _ => ⟨_, hstage, rfl⟩) nofun
  | stop i =>
    obtain ⟨-, rfl⟩ := Transition.guard_eq_some.mp h
    exact .moves (moves_put nofun) nofun
  | place served =>
    obtain ⟨hfree, rfl⟩ := Transition.guard_eq_some.mp h
    exact .other nofun (fun j => by simp [hfree]) rfl
  | otherEnds =>
    obtain ⟨hother, rfl⟩ := Transition.guard_eq_some.mp h
    exact .other nofun (fun j => by simp [hother]) rfl

/-- A step keeps the path to every open socket exactly if it spares them. -/
theorem leads_step {e : Event} (h : s.Leads) (hstep : s.step dir e = some t) :
    t.Leads ↔ Spares s e := by
  cases touches_of_step hstep with
  | @moves _ i b hmoves hremove =>
    obtain ⟨hpath, hstages, hopens⟩ := hmoves
    refine iff_of_true (fun j stage hstage hopen => ?_) ?_
    · rw [hstages, put_stages] at hstage
      rw [hpath]
      split at hstage
      case isTrue heq =>
        obtain rfl := Option.some.inj hstage
        obtain ⟨a, ha, haopen⟩ := hopens hopen
        exact heq ▸ h i a ha haopen
      case isFalse => exact h j stage hstage hopen
    · cases e with
      | remove j => exact absurd rfl (hremove j)
      | _ => trivial
  | @binds i hstage hfree hpath hstages =>
    refine iff_of_true (fun j stage hj hopen => ?_) trivial
    rw [hstages, put_stages] at hj
    split at hj
    case isTrue heq => exact heq ▸ hpath
    case isFalse => exact absurd (h j stage hj hopen) (by simp [hfree])
  | @removes i hstage hpath hstages =>
    constructor
    · intro hleads j stage hnode hj
      by_contra hopen
      have hne : j ≠ i := by
        rintro rfl
        obtain rfl := Option.some.inj (hj.symm.trans hstage)
        exact hopen rfl
      have hlead := hleads j stage (by rw [hstages, put_stages, if_neg hne, hj])
        (Bool.not_eq_false _ ▸ hopen)
      exact absurd hlead (by simp [hpath])
    · intro hspares j stage hj hopen
      rw [hstages, put_stages] at hj
      split at hj
      case isTrue =>
        obtain rfl := Option.some.inj hj
        cases hopen
      case isFalse =>
        have hshut := hspares j stage (h j stage hj hopen) hj
        cases hopen.symm.trans hshut
  | other hremove hpath hstages =>
    refine iff_of_true (fun j stage hj hopen => ?_) ?_
    · rw [hstages] at hj
      exact absurd (h j stage hj hopen) (hpath j)
    · cases e with
      | remove j => exact absurd rfl (hremove j)
      | _ => trivial

theorem leads_initial (node : Option Node) : (System.initial node).Leads := nofun

/-! ## One runtime directory -/

/-- Nobody listens on it, and nobody is about to. -/
def System.Dead (s : System) : Node → Prop
  | .other served => served = false
  | .socket j => ∀ stage, s.stages j = some stage → stage.isOpen = false

variable (dir) in
structure Behind (s : System) : Prop where
  holder : ∀ i stage, s.stages i = some stage → stage.holds = true → s.holder (dir i) = some i
  found : ∀ i, s.stages i = some .found → ∃ node, s.path = some node
  stale : ∀ i, s.stages i = some .stale → ∃ node, s.path = some node ∧ s.Dead node

theorem Behind.unique (h : Behind dir s) (hdir : ∀ i j, dir i = dir j)
    (hi : s.stages i = some a) (ha : a.holds = true) (hj : s.stages j = some b)
    (hb : b.holds = true) : i = j := by
  have hsame := h.holder i a hi ha
  rw [hdir i j, h.holder j b hj hb] at hsame
  exact (Option.some.inj hsame).symm

theorem Moves.dead {node : Node} (h : Moves s t i b) (hdead : s.Dead node) : t.Dead node := by
  cases node with
  | other served => exact hdead
  | socket j =>
    intro stage hstage
    rw [h.stages, put_stages] at hstage
    split at hstage
    case isTrue heq =>
      obtain rfl := Option.some.inj hstage
      by_contra hopen
      obtain ⟨a, ha, haopen⟩ := h.isOpen (Bool.not_eq_false _ ▸ hopen)
      cases haopen.symm.trans (hdead a (heq ▸ ha))
    case isFalse => exact hdead stage hstage

theorem Behind.moves (h : Behind dir s) (hmoves : Moves s t i b)
    (hholder : ∀ j stage, t.stages j = some stage → stage.holds = true → t.holder (dir j) = some j)
    (hfound : b = .found → ∃ node, s.path = some node)
    (hstale : b = .stale → ∃ node, s.path = some node ∧ s.Dead node) : Behind dir t := by
  refine ⟨hholder, fun j hj => ?_, fun j hj => ?_⟩
  · rw [hmoves.stages, put_stages] at hj
    rw [hmoves.path]
    split at hj
    case isTrue => exact hfound (Option.some.inj hj)
    case isFalse => exact h.found j hj
  · rw [hmoves.stages, put_stages] at hj
    rw [hmoves.path]
    have hsome : ∃ node, s.path = some node ∧ s.Dead node := by
      split at hj
      case isTrue => exact hstale (Option.some.inj hj)
      case isFalse => exact h.stale j hj
    obtain ⟨node, hnode, hdead⟩ := hsome
    exact ⟨node, hnode, hmoves.dead hdead⟩

theorem Behind.holder_put (h : Behind dir s)
    (hb : b.holds = true → ∃ a, s.stages i = some a ∧ a.holds = true) :
    ∀ j stage, (s.put i b).stages j = some stage → stage.holds = true →
      s.holder (dir j) = some j := by
  intro j stage hj hholds
  rw [put_stages] at hj
  split at hj
  case isTrue heq =>
    obtain rfl := Option.some.inj hj
    obtain ⟨a, ha, haholds⟩ := hb hholds
    exact heq ▸ h.holder i a ha haholds
  case isFalse => exact h.holder j stage hj hholds

theorem Behind.holder_release (h : Behind dir s) (hb : b.holds = false) :
    ∀ j stage, ((s.release dir i).put i b).stages j = some stage → stage.holds = true →
      ((s.release dir i).put i b).holder (dir j) = some j := by
  intro j stage hj hholds
  rw [put_stages, release_stages] at hj
  split at hj
  case isTrue =>
    obtain rfl := Option.some.inj hj
    cases hholds.symm.trans hb
  case isFalse hne =>
    have hholder := h.holder j stage hj hholds
    rw [put_holder]
    unfold System.release
    split
    case isTrue hi =>
      have hdir : dir j ≠ dir i := by
        intro heq
        rw [heq, hi] at hholder
        exact hne (Option.some.inj hholder).symm
      simp only [Function.update_of_ne hdir, hholder]
    case isFalse => exact hholder

/-- Nobody else is behind the lock. -/
theorem Behind.others (h : Behind dir s) (hdir : ∀ i j, dir i = dir j)
    (hi : s.stages i = some a) (ha : a.holds = true) :
    ∀ j, j ≠ i → ∀ b : Stage, b.holds = true → s.stages j ≠ some b := by
  intro j hne b hb hj
  exact hne (h.unique hdir hj hb hi ha)

theorem Behind.dead_of_refused (h : Behind dir s) (hdir : ∀ i j, dir i = dir j) {node : Node}
    (hi : s.stages i = some .found) (hnode : s.path = some node) (hrefused : ¬s.connects = true) :
    s.Dead node := by
  rw [System.connects, hnode] at hrefused
  cases node with
  | other served => exact Bool.eq_false_iff.mpr hrefused
  | socket j =>
    intro stage hj
    simp only [hj, Option.any_some] at hrefused
    cases stage with
    | bound =>
      obtain rfl := h.unique hdir hi rfl hj rfl
      cases hi.symm.trans hj
    | listening | abandoned => exact absurd rfl hrefused
    | _ => rfl

theorem behind_initial (node : Option Node) : Behind dir (.initial node) := ⟨nofun, nofun, nofun⟩

theorem behind_step (hdir : ∀ i j, dir i = dir j) {e : Event} (h : Behind dir s)
    (hstep : s.step dir e = some t) : Behind dir t := by
  cases e with
  | launch i | refused i | exit i =>
    obtain ⟨-, rfl⟩ := Transition.guard_eq_some.mp hstep
    exact h.moves (moves_put nofun) (h.holder_put nofun) nofun nofun
  | inherit i | removeFails i =>
    obtain ⟨hstage, rfl⟩ := Transition.guard_eq_some.mp hstep
    exact h.moves (moves_put nofun) (h.holder_put fun _ => ⟨_, hstage, rfl⟩) nofun nofun
  | listen i =>
    obtain ⟨hstage, rfl⟩ := Transition.guard_eq_some.mp hstep
    exact h.moves (moves_put fun _ => ⟨_, hstage, rfl⟩) (h.holder_put fun _ => ⟨_, hstage, rfl⟩)
      nofun nofun
  | stop i =>
    obtain ⟨hstage, rfl⟩ := Transition.guard_eq_some.mp hstep
    refine h.moves (moves_put nofun) (h.holder_put fun _ => ?_) nofun nofun
    rcases List.mem_cons.mp hstage with hstage | hstage
    · exact ⟨_, hstage, rfl⟩
    · exact ⟨_, List.mem_singleton.mp hstage, rfl⟩
  | lock i =>
    obtain ⟨⟨-, hfree⟩, rfl⟩ := Transition.guard_eq_some.mp hstep
    refine h.moves ⟨rfl, rfl, nofun⟩ (fun j stage hj hholds => ?_) nofun nofun
    have hj : (s.put i .locked).stages j = some stage := hj
    rw [put_stages] at hj
    split at hj
    case isTrue heq =>
      subst heq
      exact Function.update_self _ _ _
    case isFalse =>
      have hholder := h.holder j stage hj hholds
      rw [hdir j i, hfree] at hholder
      cases hholder
  | lookup i =>
    obtain ⟨hstage, rfl⟩ := Transition.guard_eq_some.mp hstep
    cases hpath : s.path with
    | none =>
      exact h.moves (moves_put nofun) (h.holder_put fun _ => ⟨_, hstage, rfl⟩) nofun nofun
    | some node =>
      exact h.moves (moves_put nofun) (h.holder_put fun _ => ⟨_, hstage, rfl⟩)
        (fun _ => ⟨node, hpath⟩) nofun
  | connect i =>
    obtain ⟨hstage, rfl⟩ := Transition.guard_eq_some.mp hstep
    split
    case isTrue => exact h.moves (moves_release nofun) (h.holder_release rfl) nofun nofun
    case isFalse hrefused =>
      refine h.moves (moves_put nofun) (h.holder_put fun _ => ⟨_, hstage, rfl⟩) nofun fun _ => ?_
      obtain ⟨node, hnode⟩ := h.found i hstage
      exact ⟨node, hnode, h.dead_of_refused hdir hstage hnode hrefused⟩
  | remove i =>
    obtain ⟨hstage, rfl⟩ := Transition.guard_eq_some.mp hstep
    have hothers := h.others hdir hstage rfl
    refine ⟨h.holder_put fun _ => ⟨_, hstage, rfl⟩, fun j hj => ?_, fun j hj => ?_⟩
    · have hj : (s.put i .clear).stages j = some .found := hj
      rw [put_stages] at hj
      split at hj
      case isTrue => cases hj
      case isFalse hne => exact absurd hj (hothers j hne .found rfl)
    · have hj : (s.put i .clear).stages j = some .stale := hj
      rw [put_stages] at hj
      split at hj
      case isTrue => cases hj
      case isFalse hne => exact absurd hj (hothers j hne .stale rfl)
  | bind i =>
    obtain ⟨⟨hstage, -⟩, rfl⟩ := Transition.guard_eq_some.mp hstep
    have hothers := h.others hdir hstage rfl
    refine ⟨h.holder_put fun _ => ⟨_, hstage, rfl⟩, fun j _ => ⟨_, rfl⟩, fun j hj => ?_⟩
    have hj : (s.put i .bound).stages j = some .stale := hj
    rw [put_stages] at hj
    split at hj
    case isTrue => cases hj
    case isFalse hne => exact absurd hj (hothers j hne .stale rfl)
  | fails i | finish i | crash i =>
    obtain ⟨-, rfl⟩ := Transition.guard_eq_some.mp hstep
    exact h.moves (moves_release nofun) (h.holder_release rfl) nofun nofun
  | bootFails i =>
    obtain ⟨hstage, rfl⟩ := Transition.guard_eq_some.mp hstep
    exact h.moves (moves_release fun _ => ⟨_, hstage, rfl⟩) (h.holder_release rfl) nofun nofun
  | place served =>
    obtain ⟨hfree, rfl⟩ := Transition.guard_eq_some.mp hstep
    refine ⟨h.holder, fun _ _ => ⟨_, rfl⟩, fun j hj => ?_⟩
    obtain ⟨node, hnode, -⟩ := h.stale j hj
    cases hfree.symm.trans hnode
  | otherEnds =>
    obtain ⟨hother, rfl⟩ := Transition.guard_eq_some.mp hstep
    exact ⟨h.holder, fun _ _ => ⟨_, rfl⟩, fun _ _ => ⟨_, rfl, rfl⟩⟩

/-- Behind one lock no socket that is open is ever removed. -/
theorem spares_step {e : Event} (h : Behind dir s) (hstep : s.step dir e = some t) : Spares s e := by
  cases e with
  | remove i =>
    obtain ⟨hstage, -⟩ := Transition.guard_eq_some.mp hstep
    intro j stage hnode hj
    obtain ⟨node, hsome, hdead⟩ := h.stale i hstage
    obtain rfl := Option.some.inj (hnode.symm.trans hsome)
    exact hdead stage hj
  | _ => trivial

end

/-- Nothing keeps a daemon from its socket once the lock is free and nobody listens. -/
def Bootable (dir : Nat → Nat) (s : System) : Prop :=
  ∀ i, s.stages i = none → s.holder (dir i) = none → s.connects = false →
    ∃ events t, Transition.run (System.step dir) s events = some t ∧
      t.stages i = some .listening ∧ t.path = some (.socket i) ∧ ∀ j ≠ i, t.stages j = s.stages j

theorem connects_found {s t : System} {i : Nat} (hpath : t.path = s.path)
    (hstages : t.stages = (s.put i .found).stages) (h : s.connects = false) :
    t.connects = false := by
  unfold System.connects at h ⊢
  rw [hpath, hstages]
  cases hnode : s.path with
  | none => rfl
  | some node =>
    rw [hnode] at h
    cases node with
    | other served => exact h
    | socket j =>
      simp only [put_stages]
      split
      · rfl
      · exact h

theorem bootable (dir : Nat → Nat) (s : System) : Bootable dir s := by
  intro i hi hfree hrefused
  cases hpath : s.path with
  | none =>
    refine ⟨[.launch i, .lock i, .lookup i, .bind i, .listen i], _, by
      simp [Transition.run, System.step, System.put, hi, hfree, hpath]; rfl, ?_, ?_, ?_⟩
    · simp
    · simp
    · intro j hne
      simp [hne]
  | some node =>
    let found : System :=
      { s.put i .found with holder := Function.update s.holder (dir i) (some i) }
    have hlook : Transition.run (System.step dir) s [.launch i, .lock i, .lookup i] = some found := by
      simp [Transition.run, System.step, System.put, hi, hfree, hpath, found]
    have hstage : found.stages i = some .found := by simp [found, put_stages]
    have hsame : found.path = s.path := rfl
    have hconnects : found.connects = false := connects_found hsame rfl hrefused
    have hbind : Transition.run (System.step dir) found [.connect i, .remove i, .bind i, .listen i] =
        some { found.put i .listening with path := some (.socket i) } := by
      simp [Transition.run, System.step, System.put, hstage, hconnects]
    refine ⟨_, _, Transition.run_append_eq_some.mpr ⟨found, hlook, hbind⟩, ?_, rfl, ?_⟩
    · simp [System.put]
    · intro j hne
      simp [System.put, found, hne]

structure SocketKept (dir : Nat → Nat) (node : Option Node) (events : List Event) (t : System) :
    Prop where
  leads : (∀ pre m, pre <+: events → Transition.run (System.step dir) (.initial node) pre = some m →
    m.Leads) ↔ Transition.Along (System.step dir) Spares (.initial node) events
  oneDirectory : (∀ i j, dir i = dir j) →
    Transition.Along (System.step dir) Spares (.initial node) events
  refused : (∀ i j, dir i = dir j) → ∀ i u, t.step dir (.connect i) = some u →
    u.stages i = some (.gone .alreadyListening) →
      t.path = some (.other true) ∨ ∃ j, t.path = some (.socket j) ∧ t.stages j = some .abandoned
  boots : Bootable dir t

theorem refused_of_connect {dir : Nat → Nat} {s t : System} {i : Nat} (hdir : ∀ i j, dir i = dir j)
    (h : Behind dir s) (hstep : s.step dir (.connect i) = some t)
    (hrefused : t.stages i = some (.gone .alreadyListening)) :
    s.path = some (.other true) ∨ ∃ j, s.path = some (.socket j) ∧ s.stages j = some .abandoned := by
  obtain ⟨hstage, rfl⟩ := Transition.guard_eq_some.mp hstep
  split at hrefused
  case isFalse => simp [put_stages] at hrefused
  case isTrue hconnects =>
    unfold System.connects at hconnects
    split at hconnects
    · cases hconnects
    · next served hnode => exact .inl (hconnects ▸ hnode)
    · next j hnode =>
      obtain ⟨stage, hj, hserves⟩ := (Option.any_eq_true _ _).mp hconnects
      cases stage with
      | abandoned => exact .inr ⟨j, hnode, hj⟩
      | listening =>
        -- it would be behind the lock too
        obtain rfl := h.unique hdir hstage rfl hj rfl
        cases hstage.symm.trans hj
      | _ => cases hserves

/-- For any number of daemons and every interleaving of their boots, ends and crashes: the
path leads to each daemon that listens, all along, exactly if no daemon removes a socket
that another one has open. With one runtime directory none does, a daemon is turned away
only by somebody who is not behind the lock, and the next one can always boot. -/
theorem socket_kept (dir : Nat → Nat) (node : Option Node) (events : List Event) (t : System)
    (hrun : Transition.run (System.step dir) (.initial node) events = some t) :
    SocketKept dir node events t where
  leads := Transition.always_iff_along (I := fun _ => True) (fun _ _ _ _ _ => trivial)
    (fun _ _ _ _ hleads hstep => leads_step hleads hstep) trivial (leads_initial node) hrun
  oneDirectory hdir := by
    have halong := Transition.holds_iff_along (C := Spares) (P := fun _ => True)
      (fun _ _ _ h hstep => behind_step hdir h hstep)
      (fun _ _ _ h hstep => (iff_of_true trivial ⟨trivial, spares_step h hstep⟩)) (behind_initial node) hrun
    exact (halong.mp trivial).2
  refused hdir i u hstep := by
    have hbehind : Behind dir t := Transition.invariant_run
      (fun _ _ _ h hstep => behind_step hdir h hstep) (behind_initial node) hrun
    exact refused_of_connect hdir hbehind hstep
  boots := bootable dir t

/-- Two boots over a socket that was left behind, with runtime directories of their own. -/
def overlappingBoots : List Event :=
  [.launch 0, .launch 1, .lock 0, .lock 1, .lookup 0, .lookup 1, .connect 0, .connect 1, .remove 0,
    .bind 0, .listen 0, .remove 1, .bind 1, .listen 1]

/-- Both daemons run, and nobody reaches the first. -/
theorem overlapping_boots_orphan : ∃ t,
    Transition.run (System.step id) (.initial (some (.other false))) overlappingBoots = some t ∧
      t.stages 0 = some .listening ∧ t.path = some (.socket 1) ∧
      ¬Transition.Along (System.step id) Spares (.initial (some (.other false)))
        overlappingBoots := by
  obtain ⟨t, hrun⟩ : ∃ t, Transition.run (System.step id) (.initial (some (.other false)))
      overlappingBoots = some t := ⟨_, rfl⟩
  have hstage : t.stages 0 = some .listening := by
    cases hrun
    decide
  have hpath : t.path = some (.socket 1) := by
    cases hrun
    rfl
  refine ⟨t, hrun, hstage, hpath, fun halong => ?_⟩
  have hleads := (socket_kept id _ _ t hrun).leads.mpr halong _ t List.prefix_rfl hrun
  cases hpath.symm.trans (hleads 0 _ hstage rfl)

end Gcit.Socket
