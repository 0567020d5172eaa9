import Mathlib.Data.List.Basic

/-! # Runs of a partial step function

A concurrent system is given by a step function that refuses the actions not
enabled in a state. Every scheduling choice is carried by the action, so a run
is a list of actions and an interleaving is quantified over by quantifying over
lists. Nothing here mentions a particular system.
-/

namespace Gcit.Library.Transition

universe u v w

variable {σ : Type u} {α : Type v} {τ : Type w} {step : σ → α → Option σ}

theorem guard_eq_some {p : Prop} [Decidable p] {s t : σ} :
    (if p then some s else none) = some t ↔ p ∧ s = t := by
  rw [Option.ite_none_right_eq_some, Option.some_inj]

def run (step : σ → α → Option σ) : σ → List α → Option σ
  | s, [] => some s
  | s, a :: as => (step s a).bind fun t => run step t as

@[simp] theorem run_nil (s : σ) : run step s [] = some s := rfl

theorem run_cons_eq_some {s t : σ} {a : α} {as : List α} :
    run step s (a :: as) = some t ↔ ∃ m, step s a = some m ∧ run step m as = some t := by
  simp [run, Option.bind_eq_some_iff]

theorem run_append_eq_some {s t : σ} {as bs : List α} :
    run step s (as ++ bs) = some t ↔ ∃ m, run step s as = some m ∧ run step m bs = some t := by
  induction as generalizing s with
  | nil => simp
  | cons a as ih =>
    simp only [List.cons_append, run_cons_eq_some, ih]
    constructor
    · rintro ⟨m, hm, n, hn, ht⟩
      exact ⟨n, ⟨m, hm, hn⟩, ht⟩
    · rintro ⟨n, ⟨m, hm, hn⟩, ht⟩
      exact ⟨m, hm, n, hn, ht⟩

/-- Every action of the run is taken in a state where `C` permits it. -/
def Along (step : σ → α → Option σ) (C : σ → α → Prop) : σ → List α → Prop
  | _, [] => True
  | s, a :: as => C s a ∧ match step s a with
    | some t => Along step C t as
    | none => True

theorem along_cons {C : σ → α → Prop} {s m : σ} {a : α} {as : List α} (hm : step s a = some m) :
    Along step C s (a :: as) ↔ C s a ∧ Along step C m as := by
  simp [Along, hm]

theorem along_append {C : σ → α → Prop} {s t : σ} {as bs : List α} (h : run step s as = some t) :
    Along step C s (as ++ bs) ↔ Along step C s as ∧ Along step C t bs := by
  induction as generalizing s with
  | nil =>
    obtain rfl : s = t := by simpa using h
    simp [Along]
  | cons a as ih =>
    obtain ⟨m, hm, hrest⟩ := run_cons_eq_some.mp h
    rw [List.cons_append, along_cons hm, along_cons hm, ih hrest, and_assoc]

instance decidableAlong (C : σ → α → Prop) [∀ s a, Decidable (C s a)] :
    (s : σ) → (as : List α) → Decidable (Along step C s as)
  | _, [] => inferInstanceAs (Decidable True)
  | s, a :: as =>
    match h : step s a with
    | none => decidable_of_iff (C s a) (by simp [Along, h])
    | some t =>
      have := decidableAlong C t as
      decidable_of_iff (C s a ∧ Along step C t as) (along_cons h).symm

/-- What one permitted step preserves holds after every permitted run. -/
theorem invariant_along {C : σ → α → Prop} {I : σ → Prop}
    (hstep : ∀ s a t, I s → C s a → step s a = some t → I t) {s t : σ} {as : List α}
    (hs : I s) (hC : Along step C s as) (hrun : run step s as = some t) : I t := by
  induction as generalizing s with
  | nil =>
    obtain rfl : s = t := by simpa using hrun
    exact hs
  | cons a as ih =>
    obtain ⟨m, hm, hrest⟩ := run_cons_eq_some.mp hrun
    obtain ⟨ha, has⟩ := (along_cons hm).mp hC
    exact ih (hstep s a m hs ha hm) has hrest

/-- A fact that each step keeps exactly where it is permitted is kept by a run exactly
where all of it is permitted. -/
theorem holds_iff_along {C : σ → α → Prop} {I P : σ → Prop}
    (hkeep : ∀ s a t, I s → step s a = some t → I t)
    (hstep : ∀ s a t, I s → step s a = some t → (P t ↔ P s ∧ C s a)) {s t : σ} {as : List α}
    (hs : I s) (hrun : run step s as = some t) : P t ↔ P s ∧ Along step C s as := by
  induction as generalizing s with
  | nil =>
    obtain rfl : s = t := by simpa using hrun
    simp [Along]
  | cons a as ih =>
    obtain ⟨m, hm, hrest⟩ := run_cons_eq_some.mp hrun
    rw [ih (hkeep s a m hs hm) hrest, hstep s a m hs hm, along_cons hm, and_assoc]

/-- A fact that a step keeps exactly where it is permitted holds all along a run exactly
where all of the run is permitted. -/
theorem always_iff_along {C : σ → α → Prop} {I P : σ → Prop}
    (hkeep : ∀ s a t, I s → step s a = some t → I t)
    (hstep : ∀ s a t, I s → P s → step s a = some t → (P t ↔ C s a)) {s t : σ} {as : List α}
    (hs : I s) (hP : P s) (hrun : run step s as = some t) :
    (∀ pre m, pre <+: as → run step s pre = some m → P m) ↔ Along step C s as := by
  induction as generalizing s with
  | nil =>
    refine iff_of_true (fun pre m hpre hm => ?_) trivial
    obtain rfl := List.prefix_nil.mp hpre
    obtain rfl : s = m := by simpa using hm
    exact hP
  | cons a as ih =>
    obtain ⟨m, hm, hrest⟩ := run_cons_eq_some.mp hrun
    rw [along_cons hm, ← hstep s a m hs hP hm]
    constructor
    · intro h
      have hPm : P m := h [a] m (List.prefix_append [a] as) (run_cons_eq_some.mpr ⟨m, hm, rfl⟩)
      refine ⟨hPm, (ih (hkeep s a m hs hm) hPm hrest).mp fun pre n hpre hn => ?_⟩
      exact h (a :: pre) n (List.cons_prefix_cons.mpr ⟨rfl, hpre⟩)
        (run_cons_eq_some.mpr ⟨m, hm, hn⟩)
    · rintro ⟨hPm, hAlong⟩ pre n hpre hn
      cases pre with
      | nil =>
        obtain rfl : s = n := by simpa using hn
        exact hP
      | cons b pre =>
        obtain ⟨rfl, htail⟩ := List.cons_prefix_cons.mp hpre
        obtain ⟨m', hm', hn⟩ := run_cons_eq_some.mp hn
        obtain rfl : m = m' := Option.some.inj (hm.symm.trans hm')
        exact (ih (hkeep s b m hs hm) hPm hrest).mpr hAlong pre n htail hn

/-- What a step leaves behind exactly where it is permitted, every step of a run leaves
behind exactly where all of the run is permitted. -/
theorem after_iff_along {C : σ → α → Prop} {I : σ → Prop} {Q : σ → α → σ → Prop}
    (hkeep : ∀ s a t, I s → step s a = some t → I t)
    (hstep : ∀ s a t, I s → step s a = some t → (Q s a t ↔ C s a)) {s t : σ} {as : List α}
    (hs : I s) (hrun : run step s as = some t) :
    (∀ pre a m n, pre ++ [a] <+: as → run step s pre = some m → step m a = some n → Q m a n) ↔
      Along step C s as := by
  induction as generalizing s with
  | nil =>
    refine iff_of_true (fun pre a m n hpre => ?_) trivial
    exact absurd (List.prefix_nil.mp hpre) (List.concat_ne_nil a pre)
  | cons a as ih =>
    obtain ⟨m, hm, hrest⟩ := run_cons_eq_some.mp hrun
    rw [along_cons hm, ← hstep s a m hs hm, ← ih (hkeep s a m hs hm) hrest]
    constructor
    · intro h
      refine ⟨h [] a s m (List.prefix_append [a] as) rfl hm, fun pre b n o hpre hn ho => ?_⟩
      exact h (a :: pre) b n o (List.cons_prefix_cons.mpr ⟨rfl, hpre⟩)
        (run_cons_eq_some.mpr ⟨m, hm, hn⟩) ho
    · rintro ⟨hfirst, hlater⟩ pre b n o hpre hn ho
      cases pre with
      | nil =>
        obtain ⟨rfl, -⟩ := List.cons_prefix_cons.mp hpre
        obtain rfl : s = n := by simpa using hn
        obtain rfl : m = o := Option.some.inj (hm.symm.trans ho)
        exact hfirst
      | cons c pre =>
        obtain ⟨rfl, htail⟩ := List.cons_prefix_cons.mp hpre
        obtain ⟨m', hm', hn⟩ := run_cons_eq_some.mp hn
        obtain rfl : m = m' := Option.some.inj (hm.symm.trans hm')
        exact hlater pre b n o htail hn ho

/-- Along a permitted run, what follows from the permission under an invariant is permitted. -/
theorem Along.imp {C C' : σ → α → Prop} {I : σ → Prop}
    (hkeep : ∀ s a t, I s → C s a → step s a = some t → I t) (himp : ∀ s a, I s → C s a → C' s a)
    {s : σ} {as : List α} (hs : I s) (h : Along step C s as) : Along step C' s as := by
  induction as generalizing s with
  | nil => trivial
  | cons a as ih =>
    obtain ⟨ha, has⟩ := h
    refine ⟨himp s a hs ha, ?_⟩
    cases hm : step s a with
    | none => trivial
    | some m =>
      rw [hm] at has
      exact ih (hkeep s a m hs ha hm) has

theorem along_of_forall {C : σ → α → Prop} {s : σ} {as : List α} (h : ∀ a ∈ as, ∀ s, C s a) :
    Along step C s as := by
  induction as generalizing s with
  | nil => trivial
  | cons a as ih =>
    refine ⟨h a List.mem_cons_self s, ?_⟩
    split
    · exact ih fun b hb => h b (List.mem_cons_of_mem a hb)
    · trivial

theorem invariant_run {I : σ → Prop} (hstep : ∀ s a t, I s → step s a = some t → I t)
    {s t : σ} {as : List α} (hs : I s) (hrun : run step s as = some t) : I t :=
  invariant_along (C := fun _ _ => True) (fun s a t hs _ h => hstep s a t hs h) hs
    (along_of_forall fun _ _ _ => trivial) hrun

/-- A run is no longer than what a measure lowered by each step allows. -/
theorem length_add_le {μ : σ → Nat} (hstep : ∀ s a t, step s a = some t → μ t < μ s)
    {s t : σ} {as : List α} (hrun : run step s as = some t) : as.length + μ t ≤ μ s := by
  induction as generalizing s with
  | nil =>
    obtain rfl : s = t := by simpa using hrun
    simp
  | cons a as ih =>
    obtain ⟨m, hm, hrest⟩ := run_cons_eq_some.mp hrun
    have hlt := hstep s a m hm
    have hle := ih hrest
    rw [List.length_cons]
    omega

/-- Where a step is possible in every state that is not final, and steps lower a measure,
every state leads to a final one. -/
theorem exists_run_final {μ : σ → Nat} {final : σ → Prop}
    (hstep : ∀ s a t, step s a = some t → μ t < μ s)
    (hprogress : ∀ s, ¬ final s → ∃ a t, step s a = some t) (s : σ) :
    ∃ as t, run step s as = some t ∧ final t := by
  induction hμ : μ s using Nat.strongRecOn generalizing s with
  | ind n ih =>
    by_cases hs : final s
    · exact ⟨[], s, rfl, hs⟩
    · obtain ⟨a, m, hm⟩ := hprogress s hs
      obtain ⟨as, t, hrun, ht⟩ := ih (μ m) (hμ ▸ hstep s a m hm) m rfl
      exact ⟨a :: as, t, run_cons_eq_some.mpr ⟨m, hm, hrun⟩, ht⟩

/-- A relation kept by each concrete step against a total abstract step is kept
by every run against the abstract fold of the same actions. -/
theorem simulation_run {R : σ → τ → Prop} {g : τ → α → τ}
    (hstep : ∀ s a t l, R s l → step s a = some t → R t (g l a))
    {s t : σ} {l : τ} {as : List α} (hs : R s l) (hrun : run step s as = some t) :
    R t (as.foldl g l) := by
  induction as generalizing s l with
  | nil =>
    obtain rfl : s = t := by simpa using hrun
    exact hs
  | cons a as ih =>
    obtain ⟨m, hm, hrest⟩ := run_cons_eq_some.mp hrun
    exact ih (hstep s a m l hs hm) hrest

/-! ## What can still come -/

def Reaches (step : σ → α → Option σ) (s t : σ) : Prop := ∃ as, run step s as = some t

namespace Reaches

theorem refl (s : σ) : Reaches step s s := ⟨[], rfl⟩

theorem trans {s t r : σ} (h : Reaches step s t) (h' : Reaches step t r) : Reaches step s r := by
  obtain ⟨as, has⟩ := h
  obtain ⟨bs, hbs⟩ := h'
  exact ⟨as ++ bs, run_append_eq_some.mpr ⟨t, has, hbs⟩⟩

theorem head {s t r : σ} {a : α} (h : step s a = some t) (h' : Reaches step t r) :
    Reaches step s r := by
  obtain ⟨as, has⟩ := h'
  exact ⟨a :: as, run_cons_eq_some.mpr ⟨t, h, has⟩⟩

theorem single {s t : σ} {a : α} (h : step s a = some t) : Reaches step s t := head h (refl t)

theorem invariant {I : σ → Prop} (hstep : ∀ s a t, I s → step s a = some t → I t) {s t : σ}
    (h : Reaches step s t) (hs : I s) : I t := by
  obtain ⟨as, has⟩ := h
  exact invariant_run hstep hs has

end Reaches

end Gcit.Library.Transition
