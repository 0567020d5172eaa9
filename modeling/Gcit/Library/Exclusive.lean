import Mathlib.Data.List.Nodup
import Gcit.Library.Transition

/-! # A resource behind an exclusive lock

Effects act on a resource, and only the holder of a lock may cause them. What one holder
caused between taking the lock and giving it back is its section. However the holders
take turns, the resource is what the sections, one after the other, make of it.
-/

namespace Gcit.Library.Exclusive

universe u v w

structure Locked (ι : Type u) (ε : Type v) (σ : Type w) where
  resource : σ
  holder : Option ι
  /-- In the order in which the lock was taken. -/
  sections : List (ι × List ε)

inductive Op (ι : Type u) (ε : Type v) where
  | acquire (i : ι)
  | perform (i : ι) (e : ε)
  | release (i : ι)

variable {ι : Type u} {ε : Type v} {σ : Type w}

def fresh (resource : σ) : Locked ι ε σ := ⟨resource, none, []⟩

/-- The effect goes into the section that was begun last. -/
def extend (e : ε) : List (ι × List ε) → List (ι × List ε)
  | [] => []
  | [(i, es)] => [(i, es ++ [e])]
  | s :: t :: rest => s :: extend e (t :: rest)

section Step

variable [DecidableEq ι] (apply : σ → ε → σ)

def step (l : Locked ι ε σ) : Op ι ε → Option (Locked ι ε σ)
  | .acquire i =>
    if l.holder = none then
      some { l with holder := some i, sections := l.sections ++ [(i, [])] }
    else none
  | .perform i e =>
    if l.holder = some i then
      some { l with resource := apply l.resource e, sections := extend e l.sections }
    else none
  | .release i => if l.holder = some i then some { l with holder := none } else none

end Step

theorem extend_concat (e : ε) (before : List (ι × List ε)) (i : ι) (es : List ε) :
    extend e (before ++ [(i, es)]) = before ++ [(i, es ++ [e])] := by
  induction before with
  | nil => rfl
  | cons s before ih =>
    obtain ⟨t, rest, hrest⟩ := List.exists_cons_of_ne_nil (l := before ++ [(i, es)]) (by simp)
    rw [List.cons_append, hrest, extend, ← hrest, ih, List.cons_append]

/-- The sections explain the resource, and the open section is the last one. -/
structure Serial (apply : σ → ε → σ) (start : σ) (l : Locked ι ε σ) : Prop where
  resource : l.resource = (l.sections.flatMap Prod.snd).foldl apply start
  last : ∀ i, l.holder = some i → ∃ before es, l.sections = before ++ [(i, es)]

theorem serial_fresh (apply : σ → ε → σ) (start : σ) :
    Serial apply start (fresh start : Locked ι ε σ) := by
  constructor
  · rfl
  · intro i hi
    cases hi

section

variable [DecidableEq ι] {apply : σ → ε → σ} {start : σ} {l m : Locked ι ε σ}

theorem Serial.step {op : Op ι ε} (h : Serial apply start l)
    (hstep : Exclusive.step apply l op = some m) : Serial apply start m := by
  cases op with
  | acquire i =>
    obtain ⟨-, rfl⟩ := Transition.guard_eq_some.mp hstep
    constructor
    · simpa using h.resource
    · intro j hj
      obtain rfl := Option.some.inj hj
      exact ⟨l.sections, [], rfl⟩
  | perform i e =>
    obtain ⟨hi, rfl⟩ := Transition.guard_eq_some.mp hstep
    obtain ⟨before, es, hsections⟩ := h.last i hi
    constructor
    · simp [h.resource, hsections, extend_concat, List.foldl_append]
    · intro j hj
      obtain rfl := Option.some.inj (hi.symm.trans hj)
      exact ⟨before, es ++ [e], by rw [hsections, extend_concat]⟩
  | release i =>
    obtain ⟨-, rfl⟩ := Transition.guard_eq_some.mp hstep
    constructor
    · exact h.resource
    · intro j hj
      cases hj

theorem Serial.run {ops : List (Op ι ε)} (h : Serial apply start l)
    (hrun : Transition.run (Exclusive.step apply) l ops = some m) : Serial apply start m :=
  Transition.invariant_run (fun _ _ _ hl hstep => Serial.step hl hstep) h hrun

end

end Gcit.Library.Exclusive
